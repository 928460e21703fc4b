import HaierProtocol.Transport.Refinement

/-!
# Observing the pushes

`pushes` lists what a call to `process_data` adds to the queue, each frame with the number of
bytes that are still to be looked at right after.  The rest of what has been received has been
used up, so this tells where in the stream a frame ended: `pushes_tracks` says that it is where
the receiver's log says.
-/

namespace HaierProtocol
namespace TransportLevelHandler

/-- The frames that one round adds to the queue. -/
def pushedBy (s : Scan) : List (TimestampedFrame × Nat) :=
  ((scanStep s).handler.incomingQueue.drop s.handler.incomingQueue.length).map
    fun frame => (frame, (scanStep s).handler.buffer.getSize - (scanStep s).bytesToDrop)

/-- The frames that `process_data` adds to the queue. -/
def pushes (h : TransportLevelHandler) (now : TimePoint) : List (TimestampedFrame × Nat) :=
  let h := h.checkTimeout now
  if !h.buffer.isEmpty then
    BoundedLoop.emitted (fun s : Scan => decide (s.handler.pos < s.bufSize)) scanStep pushedBy
      (scanFuel h.buffer.getSize) ⟨h, h.buffer.getSize, 0⟩
  else []

end TransportLevelHandler

open TransportLevelHandler

namespace Receiver

/-- The frames that one step accepts. -/
def accepts (r : Receiver) : List Reception := r.step.log.drop r.log.length

/-- An accepted frame ends where the bytes held begin. -/
theorem Move.log_eq {r r' : Receiver} (hm : r.Move r') :
    r'.log = r.log ∨ ∃ frame, r'.log = r.log ++ [⟨frame, r'.front⟩] := by
  obtain ⟨_, hm⟩ | ⟨_, _, hm⟩ | ⟨_, _, hm⟩ := hm
  · cases hm <;> exact .inl rfl
  · cases hm <;> exact .inl rfl
  · cases hm with
    | byte => exact .inl rfl
    | escape => exact .inl rfl
    | reject => exact .inl rfl
    | accept => exact .inr ⟨_, rfl⟩

/-- What has been received stays received. -/
theorem Move.mem_log {r r' : Receiver} (hm : r.Move r') {x : Reception} (h : x ∈ r.log) :
    x ∈ r'.log := by
  rcases hm.log_eq with heq | ⟨frame, heq⟩
  · rw [heq]
    exact h
  · rw [heq]
    exact List.mem_append_left _ h

theorem log_step {r : Receiver} (h : r.Inv) (hr : r.ready = true) :
    r.step.log = r.log ++ r.accepts := by
  rw [accepts]
  rcases (move_step h hr).log_eq with hlog | ⟨frame, hlog⟩
  · rw [hlog, List.drop_length, List.append_nil]
  · rw [hlog, List.drop_left]

end Receiver

/-- What is seen of an accepted frame when so many bytes have been received. -/
def Reception.observed (frameStart : TimePoint) (received : Nat) (x : Reception) :
    TimestampedFrame × Nat := (⟨x.frame, frameStart⟩, received - x.stop)

theorem pushedBy_tracks {s : Scan} {r : Receiver} (hs : ScanTracks s r) (hr : r.ready = true) :
    pushedBy s = r.accepts.map (Reception.observed s.handler.frameStart r.stream.length) := by
  have ht := hs.tracks
  have hstep := scanStep_tracks hs hr
  have hfixed := (fixed_scanStep s).2
  have hm := Receiver.move_step hs.inv hr
  have hqueue := hstep.tracks.queue
  rw [hfixed, Receiver.queue, hm.taken_eq] at hqueue
  rw [pushedBy, hqueue, ht.queue, Receiver.queue, Receiver.accepts]
  rcases hm.log_eq with hlog | ⟨frame, hlog⟩
  · rw [hlog, List.drop_length, List.drop_length]
    rfl
  · have hdrop : r.taken ≤ (r.log.map fun x =>
        (⟨x.frame, s.handler.frameStart⟩ : TimestampedFrame)).length := by
      rw [List.length_map]
      exact ht.taken_le
    have hheld : _ = r.step.held := hstep.tracks.getSize_sub
    rw [Receiver.held, hm.stream_eq] at hheld
    rw [hlog, List.drop_left, List.map_append, List.drop_append_of_le_length hdrop, List.drop_left,
      hheld]
    rfl

/-- What the observer sees is what the receiver adds to its log. -/
theorem pushes_tracks {h : TransportLevelHandler} {r : Receiver} (ht : Tracks h 0 r) (hinv : r.Inv)
    (now : TimePoint) :
    r.settle.log.map (Reception.observed h.frameStart r.stream.length) =
      r.log.map (Reception.observed h.frameStart r.stream.length) ++ h.pushes now := by
  rw [pushes, checkTimeout_eq]
  by_cases hempty : h.buffer.isEmpty = true
  · rw [hempty, settle_of_isEmpty ht hinv hempty, Bool.not_true, if_neg Bool.false_ne_true,
      List.append_nil]
  rw [if_pos (by simpa using hempty), ← run_eq_settle_of_tracks ht hinv]
  have hstream : ∀ r' : Receiver, r'.ready = true → r'.Inv ∧ r'.stream = r.stream →
      r'.step.Inv ∧ r'.step.stream = r.stream :=
    fun r' hr' hi => ⟨Receiver.inv_step hi.1 hr',
      (Receiver.move_step hi.1 hr').stream_eq.trans hi.2⟩
  have hlog := BoundedLoop.log_run (P := fun r' => Receiver.Inv r' ∧ r'.stream = r.stream)
    (fun r' => r'.log.map (Reception.observed h.frameStart r.stream.length))
    (fun r' => r'.accepts.map (Reception.observed h.frameStart r.stream.length)) hstream
    (fun r' hr' hi => by rw [Receiver.log_step hi.1 hr', List.map_append])
    (scanFuel h.buffer.getSize) r ⟨hinv, rfl⟩
  rw [hlog]
  congr 1
  refine (BoundedLoop.emitted_related
    (R := fun s r' => ScanTracks s r' ∧ s.handler.frameStart = h.frameStart ∧ r'.stream = r.stream)
    (fun _ _ hs => hs.1.cond_eq) ?_ ?_ _ _ _ ⟨⟨ht, rfl, fun _ => rfl, hinv⟩, rfl, rfl⟩).symm
  · intro s r' hc hs
    have hr' := hs.1.cond_eq ▸ hc
    exact ⟨scanStep_tracks hs.1 hr', (fixed_scanStep s).2.trans hs.2.1,
      (Receiver.move_step hs.1.inv hr').stream_eq.trans hs.2.2⟩
  · intro s r' hc hs
    rw [pushedBy_tracks hs.1 (hs.1.cond_eq ▸ hc), hs.2.1, hs.2.2]

end HaierProtocol
