import HaierProtocol.Protocol.Changes

/-!
# The ledger

What the record of an endpoint says about its line, at every moment: the output is what was
written, in order, every write left the bytes of its message, every frame that a handler was
given came in on the line, in order and once, and an answer was sent for a frame that came in.
-/

namespace HaierProtocol

open ProtocolHandler

/-- The bytes of a write, none if nothing went out. -/
def Write.sent (w : Write) : List UInt8 := w.bytes.getD []

/-- The frames that handlers were given, in order. -/
def arrivalsOf (trace : List Event) : List Arrival := trace.filterMap Event.arrival?

theorem arrivalsOf_append (trace more : List Event) :
    arrivalsOf (trace ++ more) = arrivalsOf trace ++ arrivalsOf more := List.filterMap_append ..

theorem arrivalsOf_snoc_none (trace : List Event) {event : Event} (h : event.arrival? = none) :
    arrivalsOf (trace ++ [event]) = arrivalsOf trace := by
  rw [arrivalsOf_append, arrivalsOf, arrivalsOf, List.filterMap_cons_none h, List.filterMap_nil,
    List.append_nil]

theorem arrivalsOf_snoc_some (trace : List Event) {event : Event} {a : Arrival}
    (h : event.arrival? = some a) : arrivalsOf (trace ++ [event]) = arrivalsOf trace ++ [a] := by
  rw [arrivalsOf_append, arrivalsOf, arrivalsOf, List.filterMap_cons_some h, List.filterMap_nil]

theorem write?_of_arrival? {event : Event} {a : Arrival} (h : event.arrival? = some a) :
    event.write? = none := by
  cases event with
  | wrote w => cases h
  | _ => rfl

namespace Endpoint

variable {env : Surroundings} {e e' : Endpoint}

/-- Every frame pushed lies in what has been received, and the frames do not overlap. -/
theorem Line.pushed_spec (h : Line e) :
    (∀ x ∈ e.pushed, ∃ start, Decodes e.received start x.2 x.1.frame) ∧
      e.pushed.Pairwise fun x y => x.2 < y.2 := by
  obtain ⟨r, hr⟩ := h.matched
  obtain ⟨placed, base, hs⟩ := hr.sound
  have hpushed : e.pushed = (placed.map Prod.snd).map
      (Reception.placed e.handler.transport.frameStart) := hs.log ▸ hr.pushed
  have hstream : r.stream = e.received := hr.stream
  constructor
  · intro x hx
    rw [hpushed, List.map_map] at hx
    obtain ⟨y, hy, rfl⟩ := List.mem_map.mp hx
    exact ⟨y.1, hstream ▸ hs.decodes y hy⟩
  · rw [hpushed, List.map_map]
    refine List.pairwise_map.mpr (hs.ordered.imp_of_mem ?_)
    intro x y _ hy hxy
    exact Nat.lt_of_le_of_lt hxy (hs.decodes y hy).stop_le.1

structure Ledger (e : Endpoint) : Prop where
  line : Line e
  output : e.output = (writes e.trace).flatMap Write.sent
  bytes : ∀ w ∈ writes e.trace, ∃ block, w.bytes = bytesFor block w.message w.useCrc ∧
    w.isSuccess = countsAsSent w.message w.useCrc
  taken : List.Sublist ((arrivalsOf e.trace ++ e.arrivals).map Arrival.placed) e.pushed
  current : ∀ a, e.current = some a → ∃ handler, .invoked (.message handler a) ∈ e.trace
  answers : ∀ w ∈ writes e.trace, ∀ processed, w.origin = .answer processed →
    ∃ a handler, processed = some a ∧ .invoked (.message handler a) ∈ e.trace

namespace Ledger

theorem start (cells : Nat → UInt8) (bufferSize : Nat) : Ledger (.start cells bufferSize) :=
  ⟨.start cells bufferSize, rfl, fun _ h => absurd h List.not_mem_nil, List.Sublist.slnil,
    fun _ h => absurd h.symm (Option.some_ne_none _), fun _ h => absurd h List.not_mem_nil⟩

/-- Nothing that is written or taken. -/
theorem of_kept (h : Ledger e) (hkept : Kept e e') (htrace : e.trace ⊆ e'.trace)
    (hwrites : writes e'.trace = writes e.trace)
    (harrivals : arrivalsOf e'.trace = arrivalsOf e.trace) : Ledger e' := by
  refine ⟨h.line.of_eq hkept.transport hkept.input hkept.received hkept.pushed hkept.arrivals
    hkept.loops, ?_, ?_, ?_, ?_, ?_⟩
  · rw [hkept.output, hwrites]
    exact h.output
  · rw [hwrites]
    exact h.bytes
  · rw [harrivals, hkept.arrivals, hkept.pushed]
    exact h.taken
  · intro a ha
    rw [hkept.current] at ha
    obtain ⟨handler, hmem⟩ := h.current a ha
    exact ⟨handler, htrace hmem⟩
  · intro w hw processed hprocessed
    rw [hwrites] at hw
    obtain ⟨a, handler, ha, hmem⟩ := h.answers w hw processed hprocessed
    exact ⟨a, handler, ha, htrace hmem⟩

theorem wrote {origin : Origin} (h : Ledger e) (message : HaierMessage) (useCrc : Bool)
    (horigin : e.Sends origin) : Ledger (e.wrote (e.writeOf env origin message useCrc)) := by
  let w := e.writeOf env origin message useCrc
  have hwrites : writes (e.wrote w).trace = writes e.trace ++ [w] := writes_snoc_wrote _ _
  have harrivals : arrivalsOf (e.wrote w).trace = arrivalsOf e.trace := arrivalsOf_snoc_none _ rfl
  have htrace : e.trace ⊆ (e.wrote w).trace := List.subset_append_left _ _
  refine ⟨h.line.of_eq rfl rfl rfl rfl rfl rfl, ?_, ?_, ?_, ?_, ?_⟩
  · show e.output ++ w.sent = _
    rw [hwrites, List.flatMap_append, h.output, List.flatMap_singleton]
  · intro w' hw'
    rw [hwrites] at hw'
    rcases List.mem_append.mp hw' with hw' | hw'
    · exact h.bytes w' hw'
    · rw [List.mem_singleton.mp hw']
      exact ⟨_, rfl, rfl⟩
  · rw [harrivals]
    exact h.taken
  · intro a ha
    obtain ⟨handler, hmem⟩ := h.current a ha
    exact ⟨handler, htrace hmem⟩
  · intro w' hw' processed hprocessed
    rw [hwrites] at hw'
    rcases List.mem_append.mp hw' with hw' | hw'
    · obtain ⟨a, handler, ha, hmem⟩ := h.answers w' hw' processed hprocessed
      exact ⟨a, handler, ha, htrace hmem⟩
    · rw [List.mem_singleton.mp hw'] at hprocessed
      obtain rfl : origin = .answer processed := hprocessed
      obtain ⟨a, ha, hcurrent⟩ := horigin
      obtain ⟨handler, hmem⟩ := h.current a hcurrent
      exact ⟨a, handler, ha, htrace hmem⟩

theorem received (h : Ledger e) (env : Surroundings) : Ledger (e.receive env) := by
  obtain ⟨new, harrivals, hpushed, _, _⟩ := Line.receive_arrivals env e
  refine ⟨h.line.receive env, h.output, h.bytes, ?_, h.current, h.answers⟩
  show List.Sublist ((arrivalsOf e.trace ++ (e.receive env).arrivals).map Arrival.placed) _
  rw [harrivals, hpushed, ← List.append_assoc, List.map_append]
  exact h.taken.append_right _

theorem takes {transport : TransportLevelHandler} {before rest : List Arrival} {a : Arrival}
    {invocation : Invocation} {current : Option Arrival} (h : Ledger e)
    (harrivals : e.arrivals = before ++ a :: rest) (hline : Line (e.withFrames transport rest))
    (hinvocation : (Event.invoked invocation).arrival? = some a)
    (hcurrent : current = e.current ∨
      current = some a ∧ ∃ handler, invocation = .message handler a) :
    Ledger ({ e.withFrames transport rest with current }.emit (.invoked invocation)) := by
  have hwrites := writes_snoc_none e.trace (write?_of_arrival? hinvocation)
  have htaken := arrivalsOf_snoc_some e.trace hinvocation
  refine ⟨hline.of_eq rfl rfl rfl rfl rfl rfl, ?_, ?_, ?_, ?_, ?_⟩
  · show e.output = (writes (e.trace ++ [.invoked invocation])).flatMap Write.sent
    rw [hwrites]
    exact h.output
  · show ∀ w ∈ writes (e.trace ++ [.invoked invocation]), _
    rw [hwrites]
    exact h.bytes
  · show List.Sublist ((arrivalsOf (e.trace ++ [.invoked invocation]) ++ rest).map _) e.pushed
    rw [htaken, List.append_assoc]
    refine List.Sublist.trans (List.Sublist.map _ ?_) h.taken
    rw [harrivals]
    exact (List.sublist_append_right before _).append_left _
  · intro b hb
    rcases hcurrent with hcurrent | ⟨hcurrent, handler, hmessage⟩
    · obtain ⟨handler, hmem⟩ := h.current b (hcurrent ▸ hb)
      exact ⟨handler, List.mem_append_left _ hmem⟩
    · have hab : b = a := Option.some_inj.mp (hb.symm.trans hcurrent)
      rw [hab]
      exact ⟨handler, List.mem_append_right _ (hmessage ▸ List.mem_cons_self)⟩
  · intro w hw processed hprocessed
    rw [show writes (_ : Endpoint).trace = _ from hwrites] at hw
    obtain ⟨b, handler, hb, hmem⟩ := h.answers w hw processed hprocessed
    exact ⟨b, handler, hb, List.mem_append_left _ hmem⟩

theorem change {P : Invocation → Prop} (h : Ledger e) (hchange : Change env P e e') :
    Ledger e' := by
  cases hchange with
  | received => exact h.received env
  | kept hkept htrace =>
    exact h.of_kept hkept (htrace ▸ List.Subset.refl _) (congrArg _ htrace) (congrArg _ htrace)
  | emitted event hkept htrace hwrite harrival =>
    refine h.of_kept hkept ?_ ?_ ?_
    · rw [htrace]
      exact List.subset_append_left _ _
    · rw [htrace]
      exact writes_snoc_none _ hwrite
    · rw [htrace]
      exact arrivalsOf_snoc_none _ harrival
  | wrote message useCrc horigin => exact h.wrote message useCrc horigin
  | taken harrivals hline hinvocation hcurrent _ =>
    exact h.takes harrivals hline hinvocation hcurrent
  | finished =>
    exact ⟨h.line.of_eq rfl rfl rfl rfl rfl rfl, h.output, h.bytes, h.taken,
      fun _ ha => absurd ha.symm (Option.some_ne_none _), h.answers⟩

end Ledger

theorem Ledger.placed_mem {e : Endpoint} (h : Ledger e) {event : Event} {a : Arrival}
    (hmem : event ∈ e.trace) (ha : event.arrival? = some a) : a.placed ∈ e.pushed :=
  h.taken.subset (List.mem_map_of_mem
    (List.mem_append_left _ (List.mem_filterMap.mpr ⟨event, hmem, ha⟩)))

/-- Handlers are given frames in the order in which they came in, each at most once. -/
theorem Ledger.arrivals_increase {e : Endpoint} (h : Ledger e) :
    (arrivalsOf e.trace).Pairwise fun a b => a.stop < b.stop := by
  have hall := h.line.pushed_spec.2.sublist h.taken
  rw [List.pairwise_map] at hall
  exact (List.pairwise_append.mp hall).1

theorem ledger_run (cells : Nat → UInt8) (bufferSize : Nat) (env : Surroundings)
    (steps : List Step) : Ledger ((start cells bufferSize).run env steps) :=
  run_invariant (.start cells bufferSize)
    (fun _ bytes h => ⟨h.line.arrive bytes, h.output, h.bytes, h.taken, h.current, h.answers⟩)
    (fun _ _ _ h hchange => h.change hchange) steps

end Endpoint
end HaierProtocol
