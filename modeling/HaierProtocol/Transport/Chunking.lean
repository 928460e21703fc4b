import HaierProtocol.Transport.Checked

/-!
# Cuts that leave no trace

Two handlers that are fed the same bytes end in the same state, however the bytes were cut.
-/

namespace HaierProtocol

open TransportLevelHandler

/-- What a history comes to that is fed one chunk after another, if its buffer is small. -/
theorem runChecked_feedCalls {cells : Nat → UInt8} {bufferSize : Nat} {chunks : List Chunk}
    (hsize : bufferSize < 2 ^ 31) (hfit : (ofBufferSize cells bufferSize).Fits chunks) :
    ∃ s, (History.start cells bufferSize).runChecked (feedCalls chunks) = .ok s ∧
      MatchesFed s (Receiver.fresh.push (Chunk.stream chunks)).settle ∧
      s.handler.frameStart = (ofBufferSize cells bufferSize).frameStart :=
  ⟨_, History.runChecked_ok (History.storesLittle_of_lt cells hsize (feedCalls chunks)),
    (MatchesFed.start cells bufferSize).feed chunks hfit, (History.fixed_run _ _).2⟩

/-- Two handlers, and two ways of cutting the same input, that lead to the same state. -/
theorem feed_eq_feed {cells cells' : Nat → UInt8} {bufferSize bufferSize' : Nat}
    {chunks chunks' : List Chunk} (hsize : bufferSize < 2 ^ 31) (hsize' : bufferSize' < 2 ^ 31)
    (hfit : (ofBufferSize cells bufferSize).Fits chunks)
    (hfit' : (ofBufferSize cells' bufferSize').Fits chunks')
    (hsame : Chunk.stream chunks = Chunk.stream chunks') :
    ∃ s s', (History.start cells bufferSize).runChecked (feedCalls chunks) = .ok s ∧
      (History.start cells' bufferSize').runChecked (feedCalls chunks') = .ok s' ∧
      s.handler.incomingQueue = s'.handler.incomingQueue ∧
      s.handler.buffer.contents = s'.handler.buffer.contents ∧
      s.handler.pos = s'.handler.pos ∧ s.handler.sepCount = s'.handler.sepCount ∧
      s.handler.frameStartFound = s'.handler.frameStartFound ∧
      s.handler.currentFrame = s'.handler.currentFrame := by
  obtain ⟨s, hrun, ⟨⟨ht, _⟩, _⟩, hstart⟩ := runChecked_feedCalls hsize hfit
  obtain ⟨s', hrun', ⟨⟨ht', _⟩, _⟩, hstart'⟩ := runChecked_feedCalls hsize' hfit'
  rw [← hsame] at ht'
  have hcontents := ht.contents.trans ht'.contents.symm
  rw [List.drop_zero, List.drop_zero] at hcontents
  refine ⟨s, s', hrun, hrun', ?_, hcontents, ht.pos.trans ht'.pos.symm,
    ht.sepCount.trans ht'.sepCount.symm, ht.found.trans ht'.found.symm,
    ht.frame.trans ht'.frame.symm⟩
  rw [ht.queue, ht'.queue, hstart, hstart']
  rfl

/-- A frame cut after its first separator, and the same frame in one piece. -/
theorem feed_eq_feed_cut :
    let wire := (Packet.mk 0x06 [0xFF, 0x01] true (by decide)).wire
    ∃ s s', (History.start (fun _ => 0) 0).runChecked (feedCalls [⟨wire, 0⟩]) = .ok s ∧
      (History.start (fun _ => 0x55) 300).runChecked
        (feedCalls [⟨wire.take 1, 0⟩, ⟨wire.drop 1, 0⟩]) = .ok s' ∧
      s.handler.incomingQueue = s'.handler.incomingQueue ∧
      s.handler.buffer.contents = s'.handler.buffer.contents ∧
      s.handler.pos = s'.handler.pos ∧ s.handler.sepCount = s'.handler.sepCount ∧
      s.handler.frameStartFound = s'.handler.frameStartFound ∧
      s.handler.currentFrame = s'.handler.currentFrame :=
  feed_eq_feed (by decide) (by decide) (by decide +kernel) (by decide +kernel) (by decide +kernel)

end HaierProtocol
