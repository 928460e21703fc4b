import HaierProtocol.Transport.Checked

/-!
# What a reset forgets

After `reset_protocol` a handler receives what a new handler receives that has read the bytes which
are still in the ring buffer.  The receivers behind the two differ by what lies behind: a part of
the stream, the frames found in it, and how many of them have been taken.
-/

namespace HaierProtocol

open Stuffing (unstuff accepted completed)
open TransportLevelHandler

namespace Receiver

variable {r : Receiver} {pre : List UInt8} {log : List Reception} {taken : Nat}

/-- The receiver, had it received all this before. -/
def behind (pre : List UInt8) (log : List Reception) (taken : Nat) (r : Receiver) : Receiver :=
  { r with
    stream := pre ++ r.stream
    front := pre.length + r.front
    log := log ++ r.log.map fun x => ⟨x.frame, pre.length + x.stop⟩
    taken }

theorem skip_behind (n : Nat) :
    (r.behind pre log taken).skip n = (r.skip n).behind pre log taken := by
  rw [skip, behind, behind, skip]
  simp only [Nat.add_assoc]

theorem reset_behind : (r.behind pre log taken).reset = r.reset.behind pre log taken := rfl

theorem byteAt_behind (i : Nat) : (r.behind pre log taken).byteAt i = r.byteAt i := by
  show (pre ++ r.stream).getD (pre.length + r.front + i) 0 = r.stream.getD (r.front + i) 0
  rw [List.getD_append_right _ _ _ _ (by omega)]
  congr 1
  omega

theorem seen_behind : (r.behind pre log taken).seen = r.seen := by
  show ((pre ++ r.stream).drop (pre.length + r.front)).take _ = (r.stream.drop r.front).take _
  rw [List.drop_length_add_append]
  rfl

theorem ready_behind : (r.behind pre log taken).ready = r.ready := by
  show decide (pre.length + r.front + r.pos < (pre ++ r.stream).length) = _
  rw [List.length_append, Nat.add_assoc]
  exact decide_eq_decide.mpr Nat.add_lt_add_iff_left

theorem held_behind : (r.behind pre log taken).held = r.held := by
  show (pre ++ r.stream).length - (pre.length + r.front) = r.stream.length - r.front
  rw [List.length_append]
  omega

theorem seek_behind : (r.behind pre log taken).seek = r.seek.behind pre log taken := by
  rw [seek, byteAt_behind, seek]
  show (if r.byteAt r.pos = 0xFF then _ else if r.pos = 2 then _ else _) = _
  split
  · rw [skip_behind]
    rfl
  · split
    · rfl
    · rw [skip_behind]
      rfl

theorem finishHeader_behind :
    (r.behind pre log taken).finishHeader = r.finishHeader.behind pre log taken := by
  rw [finishHeader, finishHeader, seen_behind]
  cases unstuff 0xFF 0x55 false (r.seen.drop 3) with
  | none =>
    dsimp only
    rw [skip_behind]
    rfl
  | some header =>
    have hframe : (r.behind pre log taken).frame = r.frame := rfl
    have hpos : (r.behind pre log taken).pos = r.pos := rfl
    dsimp only
    rw [hframe, hpos, skip_behind]
    by_cases herr : (r.frame.parseBuffer (r.seen.take 3 ++ header)).2.1 = .headerOnly
    · rw [if_pos herr, if_pos herr]
      rfl
    · rw [if_neg herr, if_neg herr]
      rfl

theorem finishBody_behind :
    (r.behind pre log taken).finishBody = r.finishBody.behind pre log taken := by
  rw [finishBody, finishBody, seen_behind]
  cases unstuff 0xFF 0x55 false r.seen with
  | none =>
    dsimp only
    rw [skip_behind]
    rfl
  | some body =>
    have hframe : (r.behind pre log taken).frame = r.frame := rfl
    have hpos : (r.behind pre log taken).pos = r.pos := rfl
    dsimp only
    rw [hframe, hpos, skip_behind]
    by_cases herr : (r.frame.parseBuffer body).2.1 = .completeFrame
    · rw [if_pos herr, if_pos herr]
      show Receiver.mk _ _ _ _ _ _ ((log ++ r.log.map _) ++ [⟨_, pre.length + r.front + _⟩]) _ =
        Receiver.mk _ _ _ _ _ _ (log ++ (r.log ++ [_]).map _) _
      rw [List.map_append, List.append_assoc, Nat.add_assoc]
      rfl
    · rw [if_neg herr, if_neg herr]
      rfl

theorem step_behind : (r.behind pre log taken).step = r.step.behind pre log taken := by
  have hframe : (r.behind pre log taken).frame = r.frame := rfl
  have hfound : (r.behind pre log taken).found = r.found := rfl
  have hsep : (r.behind pre log taken).sepCount = r.sepCount := rfl
  have hpos : (r.behind pre log taken).pos = r.pos := rfl
  rw [step, step, seek_behind, finishHeader_behind, finishBody_behind, byteAt_behind, hframe,
    hfound, hsep, hpos]
  by_cases hf : r.found = false
  · rw [if_pos hf, if_pos hf]
  · rw [if_neg hf, if_neg hf]
    generalize (if r.byteAt r.pos = 0xFF then r.sepCount + 1 else r.sepCount) = sepCount
    cases r.frame.status with
    | frameEmpty =>
      dsimp only
      split <;> rfl
    | frameHeaderOnly =>
      dsimp only
      split <;> rfl
    | frameComplete => rfl

theorem settle_behind : (r.behind pre log taken).settle = r.settle.behind pre log taken := by
  have hmeasure : measure ((r.behind pre log taken).held + 1) (r.behind pre log taken) =
      measure (r.held + 1) r := by
    have hrank : (r.behind pre log taken).rank = r.rank := rfl
    have hleft : (r.behind pre log taken).stream.length -
        ((r.behind pre log taken).front + (r.behind pre log taken).pos) =
          r.stream.length - (r.front + r.pos) := by
      show (pre ++ r.stream).length - (pre.length + r.front + r.pos) = _
      rw [List.length_append, Nat.add_assoc, Nat.add_sub_add_left]
    rw [measure, measure, hleft, hrank, ← held, ← held, held_behind]
  rw [settle, hmeasure, settle]
  refine BoundedLoop.run_related (R := fun s (s' : Receiver) => s = s'.behind pre log taken)
    ?_ ?_ _ _ _ rfl
  · intro s s' h
    rw [h, ready_behind]
  · intro s s' _ h
    rw [h, step_behind]

theorem push_behind (bytes : List UInt8) :
    (r.behind pre log taken).push bytes = (r.push bytes).behind pre log taken := by
  rw [push, behind, behind, push]
  simp only [List.append_assoc]

theorem receive_behind (capacity : Nat) (input : List UInt8) :
    (r.behind pre log taken).receive capacity input =
      (r.receive capacity input).behind pre log taken := by
  have hfound : (r.behind pre log taken).found = r.found := rfl
  rw [receive, receive, held_behind, skip_behind, reset_behind, hfound]
  split
  · split <;> exact push_behind _
  · exact push_behind _

theorem resync_behind : (r.behind pre log taken).resync = r.resync.behind pre log taken := by
  show ((r.behind pre log taken).skip r.pos).reset = _
  rw [skip_behind]
  rfl

end Receiver

/-! ## Two histories -/

theorem Matches.withInput {s : History} {r : Receiver} (h : Matches s r) (input : List UInt8) :
    Matches { s with input } r := ⟨h.tracks, h.inv, h.sound, h.stream, h.pushed⟩

theorem Matches.reset {s : History} {r : Receiver} (h : Matches s r) :
    Matches (s.after .resetProtocol) r.resync :=
  ⟨resetProtocol_tracks h.tracks h.inv, inv_resync h.inv, h.sound.resync, h.stream, h.pushed⟩

namespace History

/-- A new handler that has read `held`, and what is available. -/
def restart (cells : Nat → UInt8) (bufferSize : Nat) (held input : List UInt8) : History :=
  { ({ start cells bufferSize with input := held } : History).after .readData with input }

/-- The first history has all of this behind it that the second one has not. -/
structure Behind (pre : List UInt8) (log : List Reception) (s s' : History) (r : Receiver)
    (taken : Nat) : Prop where
  old : Matches s (r.behind pre log taken)
  new : Matches s' r
  input : s.input = s'.input
  fixed : Fixed s'.handler s.handler

variable {pre : List UInt8} {log : List Reception} {s s' : History} {r : Receiver} {taken : Nat}

theorem input_readData (s : History) :
    (s.after .readData).input = s.input.drop (min s.input.length s.handler.buffer.capacity) := by
  obtain ⟨buffer, hread, _⟩ := readData_spec s.handler s.input
  show (s.handler.readData s.input).2.1 = _
  rw [hread]

theorem Behind.after (h : Behind pre log s s' r taken) (call : Call) :
    ∃ r' taken', Behind pre log (s.after call) (s'.after call) r' taken' := by
  have hold := s.fixed_after call
  have hnew := s'.fixed_after call
  have hfixed : Fixed (s'.after call).handler (s.after call).handler :=
    ⟨hold.1.trans (h.fixed.1.trans hnew.1.symm), hold.2.trans (h.fixed.2.trans hnew.2.symm)⟩
  have hdrop : ∀ n, ∃ r' taken',
      Behind pre log (s.after (.drop n)) (s'.after (.drop n)) r' taken' := by
    intro n
    obtain ⟨taken', htake⟩ : ∃ taken',
      (r.behind pre log taken).take n = (r.take n).behind pre log taken' := ⟨_, rfl⟩
    exact ⟨_, taken', htake ▸ h.old.drop n, h.new.drop n, h.input, h.fixed⟩
  cases call with
  | arrive bytes =>
    exact ⟨r, taken, h.old.withInput _, h.new.withInput _, congrArg (· ++ bytes) h.input, hfixed⟩
  | readData =>
    have hread := h.old.readData
    rw [Receiver.receive_behind, h.fixed.1, h.input] at hread
    refine ⟨_, taken, hread, h.new.readData, ?_, hfixed⟩
    rw [input_readData, input_readData, h.input, h.fixed.1]
  | processData now =>
    exact ⟨_, taken, Receiver.settle_behind ▸ h.old.processData now, h.new.processData now, h.input,
      hfixed⟩
  | resetProtocol =>
    exact ⟨_, taken, Receiver.resync_behind ▸ h.old.reset, h.new.reset, h.input, hfixed⟩
  | pop =>
    have hpop : ∀ s : History, s.after .pop = s.after (.drop 1) := fun s => by
      rw [History.after, History.after, pop_eq_drop]
    rw [hpop, hpop]
    exact hdrop 1
  | drop framesCount => exact hdrop framesCount

theorem Behind.run : ∀ (calls : List Call) {s s' : History} {r : Receiver} {taken : Nat},
    Behind pre log s s' r taken →
      ∃ r' taken', Behind pre log (s.run calls) (s'.run calls) r' taken'
  | [], _, _, r, taken, h => ⟨r, taken, h⟩
  | call :: rest, _, _, _, _, h => by
    obtain ⟨_, _, h'⟩ := h.after call
    exact Behind.run rest h'

theorem behind_reset (cells cells' : Nat → UInt8) (bufferSize : Nat) (calls : List Call)
    {r : Receiver} (h : Matches ((start cells bufferSize).run calls) r) :
    let s := ((start cells bufferSize).run calls).after .resetProtocol
    Behind (r.stream.take r.resync.front) r.log s
      (restart cells' bufferSize s.handler.buffer.contents s.input)
      (Receiver.fresh.push s.handler.buffer.contents) r.taken := by
  intro s
  have hs : Matches s r.resync := h.reset
  have hcontents : s.handler.buffer.contents = r.stream.drop r.resync.front := hs.tracks.contents
  have hfront : r.resync.front ≤ r.stream.length := hs.inv.cursor_le
  have hbehind : r.resync = (Receiver.fresh.push s.handler.buffer.contents).behind
      (r.stream.take r.resync.front) r.log r.taken := by
    show Receiver.mk r.stream r.resync.front 0 0 false .empty r.log r.taken =
      Receiver.mk (r.stream.take r.resync.front ++ ([] ++ s.handler.buffer.contents))
        ((r.stream.take r.resync.front).length + 0) 0 0 false .empty (r.log ++ []) r.taken
    rw [hcontents, List.nil_append, List.take_append_drop, List.length_take, Nat.add_zero,
      Nat.min_eq_left hfront, List.append_nil]
  have hold := (start cells bufferSize).fixed_run (calls ++ [.resetProtocol])
  have hs_run : (start cells bufferSize).run (calls ++ [.resetProtocol]) = s := List.foldl_append
  rw [hs_run] at hold
  have hlength : s.handler.buffer.contents.length ≤
      (start cells' bufferSize).handler.buffer.capacity := by
    rw [Members.length_contents]
    exact s.handler.buffer.getSize_le.trans_eq hold.1
  have hnew := ((Matches.start cells' bufferSize).withInput s.handler.buffer.contents).readData
  have hroom : Receiver.fresh.receive (start cells' bufferSize).handler.buffer.capacity
      s.handler.buffer.contents = Receiver.fresh.push s.handler.buffer.contents :=
    receive_of_room hlength
  have hfixed := fixed_readData (start cells' bufferSize).handler s.handler.buffer.contents
  refine ⟨hbehind ▸ hs, ?_, rfl, hold.1.trans hfixed.1.symm, hold.2.trans hfixed.2.symm⟩
  rw [← hroom]
  exact hnew.withInput s.input

/-- All bytes have been looked at. -/
theorem contents_reset_processed (h : Matches s r) (now : TimePoint) :
    ((s.after (.processData now)).after .resetProtocol).handler.buffer.contents = [] := by
  have hcontents := (h.processData now).reset.tracks.contents
  have hseen := Receiver.le_of_not_ready (Receiver.settle_not_ready h.inv)
  rw [List.drop_zero] at hcontents
  rw [hcontents]
  exact List.drop_eq_nil_of_le hseen

/-- A reset leaves what a new handler holds that has read the bytes still in the ring buffer, and
nothing if all bytes have been looked at. -/
theorem reset_run (cells cells' : Nat → UInt8) (bufferSize : Nat) (calls more : List Call) :
    let s := (start cells bufferSize).run (calls ++ [.resetProtocol])
    let s' := restart cells' bufferSize s.handler.buffer.contents s.input
    let behind := s.received.length - s.handler.buffer.contents.length
    (s.run more).pushed = s.pushed ++ (s'.run more).pushed.map (fun x => (x.1, behind + x.2)) ∧
      (s.run more).handler.buffer.contents = (s'.run more).handler.buffer.contents ∧
      (s.run more).input = (s'.run more).input ∧
      ∀ before now, calls = before ++ [.processData now] → s.handler.buffer.contents = [] := by
  intro s s' behind
  obtain ⟨r, h⟩ := Matches.run calls (Matches.start cells bufferSize)
  have hs : s = ((start cells bufferSize).run calls).after .resetProtocol := List.foldl_append
  have hbehind := behind_reset cells cells' bufferSize calls h
  rw [← hs] at hbehind
  obtain ⟨r', taken, hrun⟩ := hbehind.run more
  have hstart := (s.fixed_run more).2
  refine ⟨?_, ?_, hrun.input, ?_⟩
  · have hcount : behind = (r.stream.take r.resync.front).length := by
      have hreset : Matches s r.resync := hs ▸ h.reset
      have hreceived : r.stream = s.received := hreset.stream
      have hcontents : s.handler.buffer.contents = r.stream.drop r.resync.front :=
        hreset.tracks.contents
      have hfront : r.resync.front ≤ r.stream.length := hreset.inv.cursor_le
      show s.received.length - s.handler.buffer.contents.length = _
      rw [hcontents, ← hreceived, List.length_drop, List.length_take, Nat.min_eq_left hfront]
      omega
    have hbefore : s.pushed = r.log.map (Reception.placed (s.run more).handler.frameStart) := by
      rw [hstart, hs]
      exact h.reset.pushed
    rw [hrun.old.pushed, hrun.new.pushed, hbefore, hcount, ← hrun.fixed.2]
    show (r.log ++ r'.log.map _).map _ = _
    rw [List.map_append, List.map_map, List.map_map]
    rfl
  · have hold := hrun.old.tracks.contents
    have hnew := hrun.new.tracks.contents
    rw [List.drop_zero] at hold hnew
    rw [hold, hnew]
    exact List.drop_length_add_append _
  · rintro before now rfl
    obtain ⟨r₀, h₀⟩ := Matches.run before (Matches.start cells bufferSize)
    have hprocessed := contents_reset_processed h₀ now
    have hrun : (start cells bufferSize).run (before ++ [.processData now]) =
      ((start cells bufferSize).run before).after (.processData now) := List.foldl_append
    rw [hs, hrun]
    exact hprocessed

/-- With a small ring buffer, whatever has been received before `reset_protocol`, and whatever comes
after it: the frames pushed from then on are those that a new handler pushes which has read the
bytes that are still in the ring buffer, and nothing else is read.  No byte is left if all of them
have been looked at. -/
theorem run_reset (cells cells' : Nat → UInt8) {bufferSize : Nat} (hsize : bufferSize < 2 ^ 31)
    (calls more : List Call) :
    ∃ s t t', (start cells bufferSize).runChecked (calls ++ [.resetProtocol]) = .ok s ∧
      s.runChecked more = .ok t ∧
      (restart cells' bufferSize s.handler.buffer.contents s.input).runChecked more = .ok t' ∧
      t.pushed = s.pushed ++ t'.pushed.map (fun x =>
        (x.1, s.received.length - s.handler.buffer.contents.length + x.2)) ∧
      t.handler.buffer.contents = t'.handler.buffer.contents ∧ t.input = t'.input ∧
      ∀ before now, calls = before ++ [.processData now] → s.handler.buffer.contents = [] := by
  obtain ⟨r, h⟩ := Matches.run calls (Matches.start cells bufferSize)
  have hbehind := behind_reset cells cells' bufferSize calls h
  rw [← run_snoc] at hbehind
  have hcapacity : ((start cells bufferSize).run
      (calls ++ [.resetProtocol])).handler.buffer.capacity < 2 ^ 31 :=
    ((start cells bufferSize).fixed_run _).1.trans_lt (capacity_start_lt cells hsize)
  exact ⟨_, _, _, runChecked_ok (storesLittle_of_lt cells hsize _),
    runChecked_of_matches hbehind.old (storesLittle_of_capacity hcapacity more),
    runChecked_of_matches hbehind.new
      (storesLittle_of_capacity (hbehind.fixed.1.symm.trans_lt hcapacity) more),
    reset_run cells cells' bufferSize calls more⟩

/-- A packet that a reset cuts in two. -/
def firstHalf : List Call := [.arrive [0xFF, 0xFF, 0x0A, 0x00], .readData, .processData 0]

def secondHalf : List Call := [.arrive [0x01, 0x02, 0xFF], .readData, .processData 1]

theorem run_reset_halves :
    ∃ s t t', (start (fun _ => 0) defaultBufferSize).runChecked (firstHalf ++ [.resetProtocol]) =
        .ok s ∧
      s.runChecked secondHalf = .ok t ∧
      (restart (fun _ => 1) defaultBufferSize s.handler.buffer.contents s.input).runChecked
        secondHalf = .ok t' ∧
      t.pushed = s.pushed ++ t'.pushed.map (fun x =>
        (x.1, s.received.length - s.handler.buffer.contents.length + x.2)) ∧
      t.handler.buffer.contents = t'.handler.buffer.contents ∧ t.input = t'.input ∧
      ∀ before now, firstHalf = before ++ [.processData now] → s.handler.buffer.contents = [] :=
  have hsize : defaultBufferSize < 2 ^ 31 := by decide
  run_reset (fun _ => 0) (fun _ => 1) hsize firstHalf secondHalf

end History
end HaierProtocol
