import HaierProtocol.Transport.Feeding
import HaierProtocol.Transport.Observation
import HaierProtocol.Transport.Soundness

/-!
# Histories

A `History` is a handler together with what has been received and what has been pushed since
it was created, and `Call` lists what can happen to it.  `Matches` carries the receiver through
any sequence of calls, and with it the soundness of reception to every frame ever pushed.
-/

namespace HaierProtocol

open TransportLevelHandler

structure History where
  handler : TransportLevelHandler
  /-- The bytes the stream has available. -/
  input : List UInt8
  /-- The bytes read so far. -/
  received : List UInt8
  /-- The frames pushed so far, each with the number of bytes that were used up then. -/
  pushed : List (TimestampedFrame × Nat)

inductive Call where
  | arrive (bytes : List UInt8)
  | readData
  | processData (now : TimePoint)
  | resetProtocol
  | pop
  | drop (framesCount : Nat)

namespace History

def start (cells : Nat → UInt8) (bufferSize : Nat) : History where
  handler := .ofBufferSize cells bufferSize
  input := []
  received := []
  pushed := []

def after (s : History) : Call → History
  | .arrive bytes => { s with input := s.input ++ bytes }
  | .readData =>
    let (handler, input, count) := s.handler.readData s.input
    { s with handler, input, received := s.received ++ s.input.take count }
  | .processData now =>
    { s with
      handler := s.handler.processData now
      pushed := s.pushed ++ (s.handler.pushes now).map fun x => (x.1, s.received.length - x.2) }
  | .resetProtocol => { s with handler := s.handler.resetProtocol }
  | .pop => { s with handler := s.handler.pop.1 }
  | .drop framesCount => { s with handler := s.handler.drop framesCount }

def run (s : History) (calls : List Call) : History := calls.foldl after s

theorem run_append (s : History) (before after : List Call) :
    s.run (before ++ after) = (s.run before).run after := List.foldl_append ..

theorem run_snoc (s : History) (calls : List Call) (call : Call) :
    s.run (calls ++ [call]) = (s.run calls).after call := run_append s calls [call]

theorem fixed_after (s : History) (call : Call) : Fixed s.handler (s.after call).handler := by
  cases call with
  | arrive bytes => exact ⟨rfl, rfl⟩
  | readData => exact fixed_readData s.handler s.input
  | processData now => exact fixed_processData s.handler now
  | resetProtocol => exact ⟨rfl, rfl⟩
  | pop =>
    rw [after, pop_eq_drop]
    exact ⟨rfl, rfl⟩
  | drop framesCount => exact ⟨rfl, rfl⟩

theorem fixed_run (s : History) : ∀ calls : List Call, Fixed s.handler (s.run calls).handler
  | [] => ⟨rfl, rfl⟩
  | call :: rest => by
    have hfirst := s.fixed_after call
    have hrest := (s.after call).fixed_run rest
    exact ⟨hrest.1.trans hfirst.1, hrest.2.trans hfirst.2⟩

end History

/-- What is seen of an accepted frame by someone who has kept count. -/
def Reception.placed (frameStart : TimePoint) (x : Reception) : TimestampedFrame × Nat :=
  (⟨x.frame, frameStart⟩, x.stop)

/-- The receiver behind a history. -/
structure Matches (s : History) (r : Receiver) : Prop where
  tracks : Tracks s.handler 0 r
  inv : r.Inv
  sound : Sound r
  stream : r.stream = s.received
  pushed : s.pushed = r.log.map (Reception.placed s.handler.frameStart)

namespace Matches

variable {s : History} {r : Receiver}

theorem start (cells : Nat → UInt8) (bufferSize : Nat) :
    Matches (History.start cells bufferSize) .fresh :=
  ⟨tracks_ofBufferSize cells bufferSize, Receiver.inv_fresh, Sound.fresh, rfl, rfl⟩

theorem held_le (h : Matches s r) : r.held ≤ s.handler.buffer.capacity := by
  have hheld := h.tracks.getSize_sub
  have hle := s.handler.buffer.getSize_le
  omega

theorem stop_le (h : Sound r) (hinv : r.Inv) {x : Reception} (hx : x ∈ r.log) :
    x.stop ≤ r.stream.length := by
  obtain ⟨placed, base, h⟩ := h
  rw [← h.log] at hx
  obtain ⟨y, hy, rfl⟩ := List.mem_map.mp hx
  have hbase := h.stop_le y hy
  have hfront := h.base_le
  have hcursor := hinv.cursor_le
  omega

theorem receive_stream (capacity : Nat) (input : List UInt8) :
    (r.receive capacity input).stream = r.stream ++ input.take (min input.length capacity) ∧
      (r.receive capacity input).log = r.log := by
  rw [Receiver.receive]
  split
  · split <;> exact ⟨rfl, rfl⟩
  · exact ⟨rfl, rfl⟩

theorem readData (h : Matches s r) :
    Matches (s.after .readData) (r.receive s.handler.buffer.capacity s.input) := by
  obtain ⟨buffer, hread, _, _⟩ := readData_spec s.handler s.input
  have hfixed := (fixed_readData s.handler s.input).2
  obtain ⟨hstream, hlog⟩ := receive_stream (r := r) s.handler.buffer.capacity s.input
  refine ⟨readData_tracks h.tracks h.inv s.input, inv_receive h.inv h.held_le s.input,
    h.sound.receive h.inv h.held_le s.input, ?_, ?_⟩
  · rw [hstream, h.stream]
    show _ = s.received ++ s.input.take (s.handler.readData s.input).2.2
    rw [hread]
  · rw [hlog]
    show s.pushed = r.log.map (Reception.placed (s.handler.readData s.input).1.frameStart)
    rw [hfixed]
    exact h.pushed

theorem processData (h : Matches s r) (now : TimePoint) :
    Matches (s.after (.processData now)) r.settle := by
  have hsound := h.sound.settle h.inv
  have hinv := Receiver.inv_settle h.inv
  have hpush := pushes_tracks h.tracks h.inv now
  refine ⟨processData_tracks h.tracks h.inv now, hinv, hsound,
    (Receiver.settle_stream h.inv).trans h.stream, ?_⟩
  -- Counting from the front what the observer counted from the back.
  have hplaced : ∀ l : List Reception, (∀ x ∈ l, x.stop ≤ r.stream.length) →
      (l.map (Reception.observed s.handler.frameStart r.stream.length)).map
        (fun x => (x.1, s.received.length - x.2)) =
          l.map (Reception.placed s.handler.frameStart) := by
    intro l hl
    rw [List.map_map]
    refine List.map_congr_left (fun x hx => Prod.ext rfl ?_)
    have := hl x hx
    show s.received.length - (r.stream.length - x.stop) = x.stop
    rw [← h.stream]
    omega
  have hbefore := hplaced r.log (fun x hx => stop_le h.sound h.inv hx)
  have hafter := hplaced r.settle.log (fun x hx => by
    rw [← Receiver.settle_stream h.inv]
    exact stop_le hsound hinv hx)
  rw [hpush, List.map_append, hbefore] at hafter
  show s.pushed ++ _ = r.settle.log.map (Reception.placed (s.handler.processData now).frameStart)
  rw [(fixed_processData s.handler now).2, h.pushed]
  exact hafter

theorem drop (h : Matches s r) (framesCount : Nat) :
    Matches (s.after (.drop framesCount)) (r.take framesCount) :=
  ⟨drop_tracks h.tracks framesCount, inv_take h.inv framesCount, h.sound.take framesCount, h.stream,
    h.pushed⟩

theorem after (h : Matches s r) (call : Call) : ∃ r', Matches (s.after call) r' := by
  cases call with
  | arrive bytes => exact ⟨r, h.tracks, h.inv, h.sound, h.stream, h.pushed⟩
  | readData => exact ⟨_, h.readData⟩
  | processData now => exact ⟨_, h.processData now⟩
  | resetProtocol =>
    exact ⟨_, resetProtocol_tracks h.tracks h.inv, inv_resync h.inv, h.sound.resync, h.stream,
      h.pushed⟩
  | pop =>
    refine ⟨r.take 1, ?_⟩
    rw [show s.after .pop = s.after (.drop 1) by rw [History.after, History.after, pop_eq_drop]]
    exact h.drop 1
  | drop framesCount => exact ⟨_, h.drop framesCount⟩

theorem run : ∀ (calls : List Call) {s : History} {r : Receiver}, Matches s r →
    ∃ r', Matches (s.run calls) r'
  | [], _, r, h => ⟨r, h⟩
  | call :: rest, _, _, h => by
    obtain ⟨r', h'⟩ := h.after call
    exact run rest h'

end Matches

/-- After any sequence of calls, every frame ever pushed is the decoding of a piece of what has
been received, the pieces lie one behind another in the order of the queue, and the queue holds
the last of them. -/
theorem run_decodes (cells : Nat → UInt8) (bufferSize : Nat) (calls : List Call) :
    let s := (History.start cells bufferSize).run calls
    (∃ placed : List (Nat × (TimestampedFrame × Nat)), placed.map Prod.snd = s.pushed ∧
      (∀ x ∈ placed, Decodes s.received x.1 x.2.2 x.2.1.frame) ∧
      placed.Pairwise fun x y => x.2.2 ≤ y.1) ∧
      s.handler.incomingQueue <:+ s.pushed.map Prod.fst := by
  intro s
  obtain ⟨r, h⟩ := Matches.run calls (Matches.start cells bufferSize)
  obtain ⟨placed, base, hs⟩ := h.sound
  refine ⟨⟨placed.map fun x => (x.1, x.2.placed s.handler.frameStart), ?_, ?_, ?_⟩, ?_⟩
  · rw [List.map_map, h.pushed, ← hs.log, List.map_map]
    rfl
  · intro x hx
    obtain ⟨y, hy, rfl⟩ := List.mem_map.mp hx
    exact h.stream ▸ hs.decodes y hy
  · exact List.pairwise_map.mpr hs.ordered
  · rw [h.tracks.queue, Receiver.queue, h.pushed, List.map_map]
    exact List.drop_suffix _ _

/-! ## Feeding -/

/-- Each chunk arrives and is read and processed. -/
def feedCalls (chunks : List Chunk) : List Call :=
  chunks.flatMap fun chunk => [.arrive chunk.bytes, .readData, .processData chunk.now]

/-- All that was available has been read and looked at. -/
structure MatchesFed (s : History) (r : Receiver) : Prop extends Matches s r where
  input : s.input = []
  settled : r.ready = false

namespace MatchesFed

theorem start (cells : Nat → UInt8) (bufferSize : Nat) :
    MatchesFed (History.start cells bufferSize) .fresh :=
  ⟨Matches.start cells bufferSize, rfl, rfl⟩

theorem receive {s : History} {r : Receiver} {chunk : Chunk} (h : MatchesFed s r)
    (hroom : chunk.bytes.length ≤ s.handler.buffer.getSpace) :
    MatchesFed (s.run (feedCalls [chunk])) (r.push chunk.bytes).settle ∧
      (s.run (feedCalls [chunk])).handler = s.handler.receive chunk := by
  have harrive : s.after (.arrive chunk.bytes) = { s with input := chunk.bytes } := by
    rw [History.after, h.input, List.nil_append]
  have hread := Matches.readData (s := { s with input := chunk.bytes })
    ⟨h.tracks, h.inv, h.sound, h.stream, h.pushed⟩
  have hcap : chunk.bytes.length ≤ s.handler.buffer.capacity :=
    Nat.le_trans hroom (Nat.sub_le _ _)
  rw [getSpace_eq h.tracks] at hroom
  rw [receive_of_room hroom] at hread
  have hinput : (s.handler.readData chunk.bytes).2.1 = [] := by
    obtain ⟨_, hspec, _⟩ := readData_spec s.handler chunk.bytes
    rw [hspec, Nat.min_eq_left hcap, List.drop_length]
  have hrun : s.run (feedCalls [chunk]) =
      ((s.after (.arrive chunk.bytes)).after .readData).after (.processData chunk.now) := rfl
  rw [hrun, harrive]
  exact ⟨⟨hread.processData chunk.now, hinput, Receiver.settle_not_ready hread.inv⟩, rfl⟩

theorem feed : ∀ (chunks : List Chunk) {s : History} {r : Receiver}, MatchesFed s r →
    s.handler.Fits chunks →
      MatchesFed (s.run (feedCalls chunks)) (r.push (Chunk.stream chunks)).settle
  | [], s, r, h, _ => by
    have hnil : r.push (Chunk.stream []) = r := by
      rw [Receiver.push, Chunk.stream, List.flatMap_nil, List.append_nil]
    rw [hnil, Receiver.settle_of_not_ready h.settled]
    exact h
  | chunk :: rest, s, r, h, hfit => by
    obtain ⟨hone, hhandler⟩ := h.receive hfit.1
    have hrest := feed rest hone (hhandler ▸ hfit.2)
    rw [Receiver.settle_push _ (Receiver.inv_push _ h.inv), push_push] at hrest
    exact hrest

end MatchesFed
end HaierProtocol
