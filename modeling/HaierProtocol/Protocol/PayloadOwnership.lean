import HaierProtocol.Lib.Fallible
import HaierProtocol.Protocol.Payload

/-!
# The ownership of payloads

Every live object with data owns a block of its size, and can be serialised and copied, as long as
no move leaves a source with its data size and no frame stays with the header of a body that was
not accepted.  These calls, and no others, break the invariant (`served_iff`).
-/

namespace HaierProtocol
namespace Payloads

open Ownership Fallible

variable {s s' : Payloads} {i source : Nat} {o rest : PayloadObject} {heap : PayloadHeap}

/-- What every caller relies on. -/
structure Serves (s : Payloads) : Prop where
  owns : ∀ i o, s.objects i = some o → o.dataSize ≠ 0 → o.isComplete = true →
    ∃ p block, o.data = some p ∧ s.heap.blocks p = some block ∧ block.length = o.dataSize
  alone : ∀ i j o other p, s.objects i = some o → s.objects j = some other → o.dataSize ≠ 0 →
    o.data = some p → other.data = some p → i = j
  fills : ∀ i o, s.objects i = some o → ∀ buffer limit, ∃ r,
    o.fillBuffer s.heap buffer limit = some r ∧ (o.getBufferSize ≤ limit → r.2 = o.getBufferSize)
  copies : ∀ i m, s.objects i = some (.message m) → ∃ r, m.copy s.heap = some r

/-- The calls that leave every object with what it needs: a move, unless it is to itself, has to be
from an object without data, and a frame that takes a header has to take the body too. -/
def Harmless (s : Payloads) : ObjectCall → Prop
  | .moveMessage i source => s.objects i = none →
    ∀ m, s.objects source = some (.message m) → (PayloadObject.message m).dataSize = 0
  | .moveAssignMessage i source => i ≠ source →
    ∀ t m, s.objects i = some (.message t) → s.objects source = some (.message m) →
      (PayloadObject.message m).dataSize = 0
  | .moveFrame i source => s.objects i = none →
    ∀ f, s.objects source = some (.frame f) → (PayloadObject.frame f).dataSize = 0
  | .moveAssignFrame i source => i ≠ source →
    ∀ t f, s.objects i = some (.frame t) → s.objects source = some (.frame f) →
      (PayloadObject.frame f).dataSize = 0
  | .parseBuffer i buffer =>
    ∀ f, s.objects i = some (.frame f) → ¬(f.status = .frameEmpty ∧ OnlyHeader buffer)
  | _ => True

/-! ## The invariant -/

/-- What the object has: the pointer to its block and its data size. -/
def held (s : Payloads) (i : Nat) : Option (Nat × Nat) :=
  (s.objects i).bind fun o => o.data.map fun p => (p, o.dataSize)

structure Good (s : Payloads) : Prop where
  exclusive : Exclusive s.heap s.held
  sane : ∀ i o, s.objects i = some o → Sane o

theorem held_of (h : s.objects i = some o) : s.held i = o.data.map fun p => (p, o.dataSize) := by
  rw [held, h]
  rfl

theorem held_fst (h : s.objects i = some o) : (s.held i).map Prod.fst = o.data := by
  rw [held_of h, Option.map_map]
  exact Option.map_id' ..

theorem held_update (s : Payloads) (i : Nat) (o : Option PayloadObject) (heap : PayloadHeap) :
    Payloads.held ⟨Function.update s.objects i o, heap⟩ =
      Function.update s.held i (o.bind fun o => o.data.map fun p => (p, o.dataSize)) := by
  funext j
  by_cases hji : j = i
  · rw [hji, Function.update_self]
    show (Function.update s.objects i o i).bind _ = _
    rw [Function.update_self]
  · rw [Function.update_of_ne hji]
    show (Function.update s.objects i o j).bind _ = _
    rw [Function.update_of_ne hji, held]

theorem sane_update {objects : Nat → Option PayloadObject} {new : Option PayloadObject}
    (h : ∀ j other, objects j = some other → Sane other) (hnew : ∀ o, new = some o → Sane o) :
    ∀ j other, Function.update objects i new j = some other → Sane other := by
  intro j other hj
  by_cases hji : j = i
  · rw [hji, Function.update_self] at hj
    exact hnew other hj
  · rw [Function.update_of_ne hji] at hj
    exact h j other hj

theorem good_initial : Good initial := ⟨.empty, fun _ _ h => (nomatch h)⟩

theorem good_put (hs : Good s) (hsane : Sane o)
    (hex : Exclusive heap (Function.update s.held i (o.data.map fun p => (p, o.dataSize)))) :
    Good (s.put i o heap) := by
  refine ⟨(held_update s i (some o) heap).symm ▸ hex, sane_update hs.sane ?_⟩
  rintro _ ⟨⟩
  exact hsane

/-- An object that is made anew, wherever it stands. -/
theorem good_fresh (hs : Good s) (i : Nat) (h : Fresh s.heap o heap) : Good (s.put i o heap) := by
  cases h with
  | empty data size =>
    refine good_put hs (.of_empty data size) ?_
    rw [data]
    exact hs.exclusive.drop i
  | filled block data length complete =>
    have hsome : o.data ≠ none := by
      rw [data]
      exact Option.some_ne_none _
    refine good_put hs ⟨fun _ => hsome, fun _ => complete⟩ ?_
    rw [data, ← length]
    exact hs.exclusive.alloc i block

theorem put_self (h : s.objects i = some o) : s.put i o s.heap = s := by
  rw [put, ← h, Function.update_eq_self]

/-- An object goes, with its block. -/
theorem free_object (hs : Good s) (hi : s.objects i = some o) :
    ∃ heap, s.heap.free o.data = some heap ∧ Exclusive heap (Function.update s.held i none) := by
  rw [← held_fst hi]
  exact hs.exclusive.free i

theorem good_destroyed (hs : Good s) (hex : Exclusive heap (Function.update s.held i none)) :
    Good ⟨Function.update s.objects i none, heap⟩ :=
  ⟨(held_update s i none heap).symm ▸ hex, sane_update hs.sane fun _ h => (nomatch h)⟩

/-- A payload passes to an object that has given up its own. -/
theorem good_transfer (hs : Good s) (hex : Exclusive heap (Function.update s.held i none))
    (hne : source ≠ i) (hsource : s.objects source = some o) (hdata : rest.data = none)
    (hsize : rest.dataSize = 0) : Good (s.transfer i source o rest heap) := by
  have hmove := hex.move i source
  rw [Function.update_of_ne hne, Function.update_idem, held_of hsource] at hmove
  have htarget : (s.put i o heap).held =
      Function.update s.held i (o.data.map fun p => (p, o.dataSize)) :=
    held_update s i (some o) heap
  have hrest : Exclusive heap (Function.update (s.put i o heap).held source
      (rest.data.map fun p => (p, rest.dataSize))) := by
    rw [htarget, hdata]
    exact hmove
  refine ⟨(held_update (s.put i o heap) source (some rest) heap).symm ▸ hrest, ?_⟩
  refine sane_update (sane_update hs.sane ?_) ?_
  · rintro _ ⟨⟩
    exact hs.sane source o hsource
  · rintro _ ⟨⟩
    exact .of_empty hdata hsize

theorem Good.read (hs : Good s) (hi : s.objects i = some o) :
    ∃ bytes, s.heap.read o.data o.dataSize = some bytes ∧ bytes.length = o.dataSize := by
  by_cases hsize : o.dataSize = 0
  · exact ⟨[], if_pos hsize, hsize.symm⟩
  · obtain ⟨p, hp⟩ := Option.ne_none_iff_exists'.mp ((hs.sane i o hi).filled hsize)
    have hheld := held_of hi
    rw [hp] at hheld
    rw [hp]
    exact hs.exclusive.read hheld

/-- A copy has a block of its own. -/
theorem good_copy (hs : Good s) (i : Nat) {m : MessageObject}
    (hsource : s.objects source = some (.message m)) :
    ∃ s', (m.copy s.heap).map (fun (m, heap) => s.put i (.message m) heap) = some s' ∧ Good s' := by
  obtain ⟨bytes, hread, hlen⟩ := hs.read hsource
  refine ⟨_, congrArg _ (MessageObject.copy_of_read hread), good_fresh hs i ?_⟩
  exact .filled _ _ rfl hlen rfl

theorem good_parseBuffer (hs : Good s) {f : FrameObject} (hi : s.objects i = some (.frame f))
    {buffer : List UInt8} (h : ¬(f.status = .frameEmpty ∧ OnlyHeader buffer)) :
    Good (s.put i (.frame (f.parseBuffer s.heap buffer).1) (f.parseBuffer s.heap buffer).2) := by
  by_cases hstatus : f.status = .frameComplete
  · rw [FrameObject.parseBuffer_complete hstatus, put_self hi]
    exact hs
  · exact good_fresh hs i (FrameObject.fresh_parseBuffer (hs.sane i _ hi) hstatus h)

/-! ## What it gives -/

theorem Good.serves (hs : Good s) : Serves s where
  owns i o hi hsize _ := by
    obtain ⟨p, hp⟩ := Option.ne_none_iff_exists'.mp ((hs.sane i o hi).filled hsize)
    have hheld := held_of hi
    rw [hp] at hheld
    obtain ⟨block, hblock, hlen⟩ := hs.exclusive.block i p _ hheld
    exact ⟨p, block, hp, hblock, hlen⟩
  alone i j o other p hi hj _ hp hother := by
    have hheld := held_of hi
    have hheld' := held_of hj
    rw [hp] at hheld
    rw [hother] at hheld'
    exact hs.exclusive.alone i j p _ _ hheld hheld'
  fills i o hi := by
    obtain ⟨bytes, hread, hlen⟩ := hs.read hi
    cases o with
    | message m => exact m.fillBuffer_of_read hread hlen
    | frame f => exact f.fillBuffer_of_read hread
  copies i m hi := by
    obtain ⟨bytes, hread, -⟩ := hs.read hi
    exact ⟨_, MessageObject.copy_of_read hread⟩

/-- Nobody serves who has lost data. -/
theorem Serves.filled (hs : Serves s) (hi : s.objects i = some o) (hsize : o.dataSize ≠ 0) :
    o.data ≠ none := by
  obtain ⟨r, hr, -⟩ := hs.fills i o hi [] o.getBufferSize
  exact PayloadObject.data_of_fillBuffer ⟨r, hr⟩ hsize

/-! ## One call -/

theorem ne_of_live (hi : s.objects i = none) (hsource : s.objects source = some o) :
    source ≠ i := by
  rintro rfl
  rw [hi] at hsource
  cases hsource

/-- A harmless call comes to its end and keeps the invariant. -/
theorem good_step (hs : Good s) {call : ObjectCall} (h : Harmless s call) :
    ∃ s', step s call = some s' ∧ Good s' := by
  cases call with
  | newMessage i frameType subcommand dataSize data =>
    rw [step]
    split
    · exact ⟨_, rfl, good_fresh hs i (MessageObject.fresh_construct ..)⟩
    · exact ⟨s, rfl, hs⟩
  | copyMessage i source =>
    rw [step]
    split
    · rename_i m hi hsource
      exact good_copy hs i hsource
    · exact ⟨s, rfl, hs⟩
  | moveMessage i source =>
    rw [step]
    split
    · rename_i m hi hsource
      exact ⟨_, rfl, good_transfer hs (hs.exclusive.drop i) (ne_of_live hi hsource) hsource rfl
        (h hi m hsource)⟩
    · exact ⟨s, rfl, hs⟩
  | assignMessage i source =>
    rw [step]
    by_cases hself : i = source
    · exact ⟨s, if_pos hself, hs⟩
    · rw [if_neg hself]
      split
      · rename_i t m hi hsource
        exact good_copy hs i hsource
      · exact ⟨s, rfl, hs⟩
  | moveAssignMessage i source =>
    rw [step]
    by_cases hself : i = source
    · exact ⟨s, if_pos hself, hs⟩
    · rw [if_neg hself]
      split
      · rename_i t m hi hsource
        exact ⟨_, rfl, good_transfer hs (hs.exclusive.drop i) (Ne.symm hself) hsource rfl
          (h hself t m hi hsource)⟩
      · exact ⟨s, rfl, hs⟩
  | newFrame i frameType dataSize data useCrc =>
    rw [step]
    split
    · exact ⟨_, rfl, good_fresh hs i (FrameObject.fresh_construct ..)⟩
    · exact ⟨s, rfl, hs⟩
  | emptyFrame i =>
    rw [step]
    split
    · exact ⟨_, rfl, good_fresh hs i (.empty _ rfl rfl)⟩
    · exact ⟨s, rfl, hs⟩
  | moveFrame i source =>
    rw [step]
    split
    · rename_i f hi hsource
      exact ⟨_, rfl, good_transfer hs (hs.exclusive.drop i) (ne_of_live hi hsource) hsource rfl
        (h hi f hsource)⟩
    · exact ⟨s, rfl, hs⟩
  | moveAssignFrame i source =>
    rw [step]
    by_cases hself : i = source
    · exact ⟨s, if_pos hself, hs⟩
    · rw [if_neg hself]
      split
      · rename_i t f hi hsource
        obtain ⟨heap, hfree, hex⟩ := free_object hs hi
        refine ⟨_, congrArg _ hfree, ?_⟩
        exact good_transfer hs hex (Ne.symm hself) hsource rfl (h hself t f hi hsource)
      · exact ⟨s, rfl, hs⟩
  | parseBuffer i buffer =>
    rw [step]
    split
    · rename_i f hi
      exact ⟨_, rfl, good_parseBuffer hs hi (h f hi)⟩
    · exact ⟨s, rfl, hs⟩
  | reset i =>
    rw [step]
    split
    · rename_i f hi
      obtain ⟨heap, hfree, hex⟩ := free_object hs hi
      exact ⟨_, congrArg _ hfree, good_put hs (.of_empty rfl rfl) hex⟩
    · exact ⟨s, rfl, hs⟩
  | destroy i =>
    rw [step]
    split
    · rename_i o hi
      obtain ⟨heap, hfree, hex⟩ := free_object hs hi
      exact ⟨_, congrArg _ hfree, good_destroyed hs hex⟩
    · exact ⟨s, rfl, hs⟩

/-- What a move leaves behind has to be without a data size. -/
theorem Serves.released (hs : Serves (s.transfer i source o rest heap)) (hrest : rest.data = none) :
    rest.dataSize = 0 := by
  by_contra hsize
  exact hs.filled (Function.update_self ..) hsize hrest

/-- After any other call somebody is left without data. -/
theorem harmless_of_serves (hs : Good s) {call : ObjectCall} (hstep : step s call = some s')
    (hserves : Serves s') : Harmless s call := by
  cases call with
  | moveMessage i source =>
    intro hi m hsource
    rw [step, hi, hsource] at hstep
    cases hstep
    exact hserves.released rfl
  | moveAssignMessage i source =>
    intro hself t m hi hsource
    rw [step, if_neg hself, hi, hsource] at hstep
    cases hstep
    exact hserves.released rfl
  | moveFrame i source =>
    intro hi f hsource
    rw [step, hi, hsource] at hstep
    cases hstep
    exact hserves.released rfl
  | moveAssignFrame i source =>
    intro hself t f hi hsource
    rw [step, if_neg hself, hi, hsource] at hstep
    obtain ⟨heap, -, rfl⟩ := Option.map_eq_some_iff.mp hstep
    exact hserves.released rfl
  | parseBuffer i buffer =>
    rintro f hi ⟨hstatus, honly⟩
    obtain ⟨hdata, hsize⟩ := FrameObject.parseBuffer_left s.heap (hs.sane i _ hi) hstatus honly
    rw [step, hi] at hstep
    cases hstep
    exact hserves.filled (Function.update_self ..) hsize hdata
  | newMessage _ _ _ _ _ => trivial
  | copyMessage _ _ => trivial
  | assignMessage _ _ => trivial
  | newFrame _ _ _ _ _ => trivial
  | emptyFrame _ => trivial
  | reset _ => trivial
  | destroy _ => trivial

/-! ## Runs -/

/-- In every state that a sequence of calls goes through, every object has and can do what its
callers rely on, exactly if every call is harmless. -/
theorem served_iff (calls : List ObjectCall) :
    (∀ before, before <+: calls → ∃ s, run step initial before = some s ∧ Serves s) ↔
      ∀ before call, before ++ [call] <+: calls → ∀ s, run step initial before = some s →
        Harmless s call :=
  run_serves_iff (fun _ hs => hs.serves) (fun _ _ hs h => good_step hs h)
    (fun _ _ _ hs hstep hserves => harmless_of_serves hs hstep hserves) good_initial calls

/-- The source of a move keeps its data size, and serialising it reads through a null pointer. -/
theorem movedFrom_unserved :
    (∃ s m, run step initial [.newMessage 0 1 0 1 (some #v[7]), .moveMessage 1 0] = some s ∧
      s.objects 0 = some (.message m) ∧ m.dataSize = 1 ∧ m.data = none ∧
      m.fillBuffer s.heap [0] 1 = none) ∧
    ¬∀ calls before, before <+: calls → ∃ s, run step initial before = some s ∧ Serves s := by
  refine ⟨⟨_, _, rfl, rfl, rfl, rfl, rfl⟩, fun h => ?_⟩
  obtain ⟨s, hrun, hserves⟩ :=
    h [.newMessage 0 1 0 1 (some #v[7]), .moveMessage 1 0] _ List.prefix_rfl
  cases hrun
  obtain ⟨p, block, hdata, -⟩ := hserves.owns 0 _ rfl Nat.one_ne_zero rfl
  cases hdata

end Payloads
end HaierProtocol
