import HaierProtocol.Transport.History

/-!
# Stale frames

The timeout for partial frames never fires, and the time at which the start of a frame is seen is
not recorded.  `startSeen` records it from outside, and `prompt_iff` says when no call to
`process_data` leaves a frame in the making whose start was seen too long ago: when no call that
comes too late finds stored all of a header but not all of the body.
-/

namespace HaierProtocol

open Stuffing (unstuff accepted completed)
open TransportLevelHandler

namespace Receiver

/-- The bytes held. -/
def rest (r : Receiver) : List UInt8 := r.stream.drop r.front

/-- One entry if the step sees the start of a frame. -/
def startedBy (r : Receiver) : List Unit :=
  if r.found = false ∧ r.step.found = true then [()] else []

end Receiver

/-- The first `n` bytes are the separators and the header of `frame`. -/
structure Announced (bytes : List UInt8) (n : Nat) (frame : HaierFrame) : Prop where
  last : completed 0xFF ((bytes.take n).drop 2) = 8
  more : ∀ m < n, completed 0xFF ((bytes.take m).drop 2) < 8
  parsed : ∃ header, unstuff 0xFF 0x55 false ((bytes.take n).drop 3) = some header ∧
    (HaierFrame.empty.parseBuffer ((bytes.take n).take 3 ++ header)).2.1 = .headerOnly ∧
    (HaierFrame.empty.parseBuffer ((bytes.take n).take 3 ++ header)).1 = frame

/-- The header of the frame being collected is that of `next`, and ends after `n` of the bytes. -/
inductive Headed (frame : HaierFrame) (bytes : List UInt8) : Nat → HaierFrame → Prop
  | parsed (hstatus : frame.status = .frameHeaderOnly) : Headed frame bytes 0 frame
  | next {n : Nat} {next : HaierFrame} (hframe : frame = .empty) (h : Announced bytes n next) :
      Headed frame bytes n next

/-- The bytes hold all of the header of the frame being collected, but not of its body. -/
structure Awaits (found : Bool) (frame : HaierFrame) (bytes : List UInt8) : Prop where
  found : found = true
  body : ∃ n next, Headed frame bytes n next ∧ completed 0xFF (bytes.drop n) < next.bodySize

section

variable {bytes : List UInt8} {m n : Nat} {frame next next' : HaierFrame}

/-- A header is complete at one place only. -/
theorem eq_of_last (hlast : completed 0xFF ((bytes.take m).drop 2) = 8)
    (hmore : ∀ k < m, completed 0xFF ((bytes.take k).drop 2) < 8)
    (hlast' : completed 0xFF ((bytes.take n).drop 2) = 8)
    (hmore' : ∀ k < n, completed 0xFF ((bytes.take k).drop 2) < 8) : m = n := by
  rcases Nat.lt_trichotomy m n with hlt | heq | hlt
  · exact absurd hlast (Nat.ne_of_lt (hmore' m hlt))
  · exact heq
  · exact absurd hlast' (Nat.ne_of_lt (hmore n hlt))

theorem Announced.unique (h : Announced bytes m next) (h' : Announced bytes n next') :
    m = n ∧ next = next' := by
  obtain rfl : m = n := eq_of_last h.last h.more h'.last h'.more
  obtain ⟨header, hgood, _, rfl⟩ := h.parsed
  obtain ⟨header', hgood', _, rfl⟩ := h'.parsed
  obtain rfl : header = header' := Option.some_inj.mp (hgood.symm.trans hgood')
  exact ⟨rfl, rfl⟩

theorem status_empty : HaierFrame.empty.status ≠ .frameHeaderOnly := by decide

theorem status_of_headerOnly
    (h : (HaierFrame.empty.parseBuffer bytes).2.1 = .headerOnly) :
    (HaierFrame.empty.parseBuffer bytes).1.status = .frameHeaderOnly := by
  obtain ⟨_, _, _, _, _, hof⟩ := HaierFrame.parseBuffer_headerOnly h
  rw [hof]
  rfl

theorem Headed.unique (h : Headed frame bytes m next) (h' : Headed frame bytes n next') :
    m = n ∧ next = next' := by
  cases h with
  | parsed hstatus =>
    cases h' with
    | parsed => exact ⟨rfl, rfl⟩
    | next hframe => exact absurd (hframe ▸ hstatus) status_empty
  | next hframe hnext =>
    cases h' with
    | parsed hstatus => exact absurd (hframe ▸ hstatus) status_empty
    | next _ hnext' => exact hnext.unique hnext'

end

namespace Receiver

variable {r r₀ r' : Receiver}

theorem seen_eq_rest (r : Receiver) : r.seen = r.rest.take (r.pos + 1) := rfl

/-- Within a header that is not complete. -/
theorem completed_take_lt (hmore : completed 0xFF ((r.window r.pos).drop 2) < 8) :
    ∀ k < r.pos + 1, completed 0xFF ((r.rest.take k).drop 2) < 8 := by
  intro k hk
  have htake : r.rest.take k <+: r.window r.pos :=
    List.take_prefix_take_left (Nat.le_of_lt_succ hk)
  exact Nat.lt_of_le_of_lt (Stuffing.completed_mono 0xFF (htake.drop 2)) hmore

/-- What `r₀` had been waiting for. -/
def Awaits (r₀ : Receiver) : Prop := HaierProtocol.Awaits r₀.found r₀.frame r₀.rest

/-- Where a receiver stands that has seen no start of a frame since it was `r₀`. -/
inductive Since (r₀ r : Receiver) : Prop
  | header (hfound₀ : r₀.found = true) (hframe₀ : r₀.frame = .empty) (hfound : r.found = true)
      (hframe : r.frame = .empty) (hfront : r.front = r₀.front)
  | body {n : Nat} (hfound₀ : r₀.found = true) (hheaded : Headed r₀.frame r₀.rest n r.frame)
      (hfound : r.found = true) (hstatus : r.frame.status = .frameHeaderOnly)
      (hfront : r.front = r₀.front + n)
  | left (hfound : r.found = false) (hnot : ¬ r₀.Awaits)

/-- A header that is complete but wrong is no header. -/
theorem not_awaits_of_header (hframe₀ : r₀.frame = .empty) (hrest : r.rest = r₀.rest)
    (hmore : completed 0xFF ((r.window r.pos).drop 2) < 8)
    (hlast : completed 0xFF (r.seen.drop 2) = 8)
    (hwrong : ∀ header, unstuff 0xFF 0x55 false (r.seen.drop 3) = some header →
      (HaierFrame.empty.parseBuffer (r.seen.take 3 ++ header)).2.1 ≠ .headerOnly) :
    ¬ r₀.Awaits := by
  rintro ⟨_, n, next, hheaded, _⟩
  cases hheaded with
  | parsed hstatus => exact status_empty (hframe₀ ▸ hstatus)
  | next _ hnext =>
    rw [← hrest] at hnext
    obtain ⟨header, hgood, hparse, _⟩ := hnext.parsed
    rw [eq_of_last hnext.last hnext.more hlast (completed_take_lt hmore)] at hgood hparse
    exact hwrong header hgood hparse

/-- A body that is complete is awaited no more. -/
theorem not_awaits_of_body {n : Nat} (hheaded : Headed r₀.frame r₀.rest n r.frame)
    (hrest : r.rest = r₀.rest.drop n) (hlast : completed 0xFF r.seen = r.frame.bodySize) :
    ¬ r₀.Awaits := by
  rintro ⟨_, n', next, hheaded', hmore⟩
  obtain ⟨rfl, rfl⟩ := hheaded'.unique hheaded
  rw [← hrest, ← hlast, seen_eq_rest] at hmore
  exact Nat.not_lt_of_le (Stuffing.completed_mono 0xFF (List.take_prefix _ _)) hmore

theorem since_headerMove (hinv : r.Inv) (hm : r.HeaderMove r') (hrest : r.rest = r₀.rest)
    (hfound₀ : r₀.found = true) (hframe₀ : r₀.frame = .empty) (hfound : r.found = true)
    (hframe : r.frame = .empty) (hfront : r.front = r₀.front) : Since r₀ r' := by
  obtain ⟨_, _, hmore⟩ := hinv.of_header hfound hframe
  cases hm with
  | byte => exact .header hfound₀ hframe₀ hfound hframe hfront
  | escape hlast hbad =>
    refine .left rfl (not_awaits_of_header hframe₀ hrest hmore hlast ?_)
    intro header hgood
    rw [hbad] at hgood
    cases hgood
  | reject hlast hgood herr =>
    refine .left rfl (not_awaits_of_header hframe₀ hrest hmore hlast ?_)
    intro header hgood'
    obtain rfl := Option.some_inj.mp (hgood.symm.trans hgood')
    exact herr
  | accept hlast hgood herr =>
    have hnext : Announced r.rest (r.pos + 1) _ :=
      ⟨hlast, completed_take_lt hmore, _, hgood, herr, rfl⟩
    exact .body hfound₀ (.next hframe₀ (hrest ▸ hnext)) hfound (status_of_headerOnly herr)
      (congrArg (· + (r.pos + 1)) hfront)

theorem since_bodyMove {n : Nat} (hm : r.BodyMove r') (hrest : r.rest = r₀.rest.drop n)
    (hfound₀ : r₀.found = true) (hheaded : Headed r₀.frame r₀.rest n r.frame)
    (hfound : r.found = true) (hstatus : r.frame.status = .frameHeaderOnly)
    (hfront : r.front = r₀.front + n) : Since r₀ r' := by
  cases hm with
  | byte => exact .body hfound₀ hheaded hfound hstatus hfront
  | escape hlast => exact .left rfl (not_awaits_of_body hheaded hrest hlast)
  | reject hlast => exact .left rfl (not_awaits_of_body hheaded hrest hlast)
  | accept hlast => exact .left rfl (not_awaits_of_body hheaded hrest hlast)

theorem Since.not_awaits (h : Since r₀ r) (hfound : r.found = false) : ¬ r₀.Awaits := by
  cases h with
  | header _ _ hno => exact absurd (hfound.symm.trans hno) (by decide)
  | body _ _ hno => exact absurd (hfound.symm.trans hno) (by decide)
  | left _ hnot => exact hnot

/-- A step that sees no start of a frame. -/
theorem since_move (hinv : r.Inv) (hm : r.Move r') (hstream : r.stream = r₀.stream)
    (hquiet : ¬ (r.found = false ∧ r'.found = true)) (h : Since r₀ r) : Since r₀ r' := by
  cases h with
  | header hfound₀ hframe₀ hfound hframe hfront =>
    obtain ⟨hno, _⟩ | ⟨_, _, hm⟩ | ⟨_, hno, _⟩ := hm
    · exact absurd (hno.symm.trans hfound) (by decide)
    · have hrest : r.rest = r₀.rest := by rw [rest, rest, hstream, hfront]
      exact since_headerMove hinv hm hrest hfound₀ hframe₀ hfound hframe hfront
    · exact absurd (hframe ▸ hno) status_empty
  | @body n hfound₀ hheaded hfound hstatus hfront =>
    obtain ⟨hno, _⟩ | ⟨_, hno, _⟩ | ⟨_, _, hm⟩ := hm
    · exact absurd (hno.symm.trans hfound) (by decide)
    · exact absurd (hno ▸ hstatus) status_empty
    · have hrest : r.rest = r₀.rest.drop n := by
        rw [rest, rest, hstream, hfront, List.drop_drop]
      exact since_bodyMove hm hrest hfound₀ hheaded hfound hstatus hfront
  | left hfound hnot =>
    exact .left (Bool.eq_false_iff.mpr fun hfound' => hquiet ⟨hfound, hfound'⟩) hnot

/-- What a receiver waits for, and where it stands from then on. -/
theorem since_refl (h : r.Inv) : Since r r := by
  cases h.mode with
  | seeking hfound =>
    exact .left hfound fun hawaits => absurd (hfound.symm.trans hawaits.found) (by decide)
  | header hfound hframe => exact .header hfound hframe hfound hframe rfl
  | body hfound hstatus => exact .body hfound (.parsed hstatus) hfound hstatus rfl

/-- A receiver that has looked at everything, and seen no start of a frame, collects a body exactly
if it was to be expected. -/
theorem since_settled (hinv : r.Inv) (hr : r.ready = false) (hstream : r.stream = r₀.stream)
    (h : Since r₀ r) : r.frame.status = .frameHeaderOnly ↔ r₀.Awaits := by
  have hwindow : r.window r.pos = r.rest := window_of_settled hinv hr
  cases h with
  | header hfound₀ hframe₀ hfound hframe hfront =>
    obtain ⟨_, _, hmore⟩ := hinv.of_header hfound hframe
    have hrest : r.rest = r₀.rest := by rw [rest, rest, hstream, hfront]
    refine iff_of_false (fun hstatus => status_empty (hframe ▸ hstatus)) ?_
    rintro ⟨_, n, next, hheaded, _⟩
    cases hheaded with
    | parsed hstatus => exact status_empty (hframe₀ ▸ hstatus)
    | next _ hnext =>
      rw [hwindow, hrest] at hmore
      have hpre : (r₀.rest.take n).drop 2 <+: r₀.rest.drop 2 := (List.take_prefix _ _).drop 2
      have hle := Stuffing.completed_mono 0xFF hpre
      rw [hnext.last] at hle
      exact Nat.not_lt_of_le hle hmore
  | body hfound₀ hheaded hfound hstatus hfront =>
    have hmore := (hinv.of_body hstatus).1
    rw [hwindow, rest, hstream, hfront, ← List.drop_drop] at hmore
    exact iff_of_true hstatus ⟨hfound₀, _, _, hheaded, hmore⟩
  | left hfound hnot =>
    refine iff_of_false (fun hstatus => ?_) hnot
    rw [(hinv.of_seeking hfound).1] at hstatus
    exact status_empty hstatus

/-- Settling ends in the body of a frame whose start had been seen before exactly if that was to be
expected. -/
theorem settle_since (hinv : r.Inv) (fuel : Nat)
    (hrun : BoundedLoop.run ready step fuel r = r.settle) :
    r.Awaits ↔ r.settle.frame.status = .frameHeaderOnly ∧
      BoundedLoop.emitted ready step startedBy fuel r = [] := by
  -- Where the receiver stands, and whether it has seen a start on the way.
  let Q (r' : Receiver) (seen : List Unit) : Prop := r'.Inv ∧ r'.stream = r.stream ∧
    (seen = [] ∧ Since r r' ∨ seen ≠ [] ∧ ¬ r.Awaits)
  have hstep : ∀ r' seen, ready r' = true → Q r' seen → Q (step r') (seen ++ startedBy r') := by
    rintro r' seen hr ⟨hinv', hstream, hcases⟩
    have hm := move_step hinv' hr
    refine ⟨inv_move hinv' hr hm, hm.stream_eq.trans hstream, ?_⟩
    rcases hcases with ⟨rfl, hsince⟩ | ⟨hne, hnot⟩
    · rw [List.nil_append, startedBy]
      by_cases hstart : r'.found = false ∧ r'.step.found = true
      · rw [if_pos hstart]
        exact .inr ⟨List.cons_ne_nil _ _, hsince.not_awaits hstart.1⟩
      · rw [if_neg hstart]
        exact .inl ⟨rfl, since_move hinv' hm hstream hstart hsince⟩
    · exact .inr ⟨fun h => hne (List.append_eq_nil_iff.mp h).1, hnot⟩
  have hend : Q (BoundedLoop.run ready step fuel r)
      ([] ++ BoundedLoop.emitted ready step startedBy fuel r) :=
    BoundedLoop.run_emitted hstep fuel r [] ⟨hinv, rfl, .inl ⟨rfl, since_refl hinv⟩⟩
  rw [hrun, List.nil_append] at hend
  obtain ⟨hinv', hstream, ⟨hnil, hsince⟩ | ⟨hne, hnot⟩⟩ := hend
  · have hiff := since_settled hinv' (settle_not_ready hinv) hstream hsince
    exact ⟨fun h => ⟨hiff.mpr h, hnil⟩, fun h => hiff.mp h.1⟩
  · exact iff_of_false hnot fun h => hne h.2

end Receiver

/-! ## The handler -/

namespace TransportLevelHandler

/-- One entry if the round sees the start of a frame. -/
def startedBy (s : Scan) : List Unit :=
  if s.handler.frameStartFound = false ∧ (scanStep s).handler.frameStartFound = true then [()]
  else []

/-- Whether `process_data` sees the start of a frame. -/
def starts (h : TransportLevelHandler) (now : TimePoint) : Bool :=
  let h := h.checkTimeout now
  if !h.buffer.isEmpty then
    !(BoundedLoop.emitted (fun s : Scan => decide (s.handler.pos < s.bufSize)) scanStep startedBy
      (scanFuel h.buffer.getSize) ⟨h, h.buffer.getSize, 0⟩).isEmpty
  else false

/-- The bytes stored hold all of the header of the frame being collected, but not of its body. -/
def Awaits (h : TransportLevelHandler) : Prop :=
  HaierProtocol.Awaits h.frameStartFound h.currentFrame h.buffer.contents

variable {h : TransportLevelHandler} {r : Receiver}

theorem awaits_tracks (ht : Tracks h 0 r) : h.Awaits ↔ r.Awaits := by
  have hcontents := ht.contents
  rw [List.drop_zero] at hcontents
  rw [Awaits, ht.found, ht.frame, hcontents]
  rfl

theorem startedBy_tracks {s : Scan} (hs : ScanTracks s r) (hr : r.ready = true) :
    startedBy s = r.startedBy := by
  rw [startedBy, Receiver.startedBy, hs.tracks.found, (scanStep_tracks hs hr).tracks.found]

theorem starts_tracks (ht : Tracks h 0 r) (hinv : r.Inv) (now : TimePoint) :
    h.starts now = false ↔ BoundedLoop.emitted Receiver.ready Receiver.step Receiver.startedBy
      (scanFuel h.buffer.getSize) r = [] := by
  rw [starts, checkTimeout_eq]
  by_cases hempty : h.buffer.isEmpty = true
  · have hr : r.ready = false := by
      have hsettled := Receiver.settle_not_ready hinv
      rwa [settle_of_isEmpty ht hinv hempty] at hsettled
    have hnone : ∀ fuel, BoundedLoop.emitted Receiver.ready Receiver.step Receiver.startedBy
        fuel r = [] := by
      intro fuel
      cases fuel with
      | zero => rfl
      | succ fuel => rw [BoundedLoop.emitted, if_neg (by rw [hr]; decide)]
    rw [hempty, hnone]
    exact iff_of_true rfl rfl
  · have hsame := BoundedLoop.emitted_related (R := ScanTracks) (fun _ _ hs => hs.cond_eq)
      (fun _ _ hc hs => scanStep_tracks hs (hs.cond_eq ▸ hc))
      (fun _ _ hc hs => startedBy_tracks hs (hs.cond_eq ▸ hc)) (scanFuel h.buffer.getSize)
      ⟨h, h.buffer.getSize, 0⟩ r ⟨ht, rfl, fun _ => rfl, hinv⟩
    rw [if_pos (by simpa using hempty), hsame, Bool.not_eq_false', List.isEmpty_iff]

/-- A frame whose start had been seen before is collected after `process_data` exactly if it was to
be expected. -/
theorem awaits_iff (ht : Tracks h 0 r) (hinv : r.Inv) (now : TimePoint) :
    h.Awaits ↔ (h.processData now).currentFrame.status = .frameHeaderOnly ∧
      h.starts now = false := by
  rw [awaits_tracks ht, (processData_tracks ht hinv now).frame, starts_tracks ht hinv]
  exact Receiver.settle_since hinv _ (run_eq_settle_of_tracks ht hinv)

end TransportLevelHandler

/-! ## Histories -/

namespace History

/-- When the start of the frame was seen last, after another call. -/
def sees (s : History) (seen : Option TimePoint) : Call → Option TimePoint
  | .processData now => if s.handler.starts now then some now else seen
  | _ => seen

/-- When the start of the frame was seen last. -/
def startSeen (s : History) (seen : Option TimePoint) : List Call → Option TimePoint
  | [] => seen
  | call :: rest => (s.after call).startSeen (s.sees seen call) rest

theorem startSeen_snoc (call : Call) : ∀ (calls : List Call) (s : History)
    (seen : Option TimePoint), s.startSeen seen (calls ++ [call]) =
      (s.run calls).sees (s.startSeen seen calls) call
  | [], _, _ => rfl
  | _ :: rest, s, _ => startSeen_snoc call rest (s.after _) _

/-- The start of the frame was seen at most the frame timeout before `now`. -/
def Recent (seen : Option TimePoint) (now : TimePoint) : Prop :=
  ∀ time, seen = some time → now - time ≤ milliseconds frameTimeout

/-- No call to `process_data` leaves a frame with its header complete whose start was seen too long
before. -/
def Prompt (s : History) (calls : List Call) : Prop :=
  ∀ before now after, calls = before ++ .processData now :: after →
    ((s.run before).after (.processData now)).handler.currentFrame.status = .frameHeaderOnly →
      Recent (s.startSeen none (before ++ [.processData now])) now

/-- No call to `process_data` comes too long after the start of a frame that has its header and is
waiting for its body. -/
def Punctual (s : History) (calls : List Call) : Prop :=
  ∀ before now after, calls = before ++ .processData now :: after →
    (s.run before).handler.Awaits → Recent (s.startSeen none before) now

/-- A start that is seen now is recent.  Any other frame was waiting for its body before. -/
theorem prompt_call_iff {s : History} {r : Receiver} (h : Matches s r) (seen : Option TimePoint)
    (now : TimePoint) :
    ((s.after (.processData now)).handler.currentFrame.status = .frameHeaderOnly →
        Recent (s.sees seen (.processData now)) now) ↔
      (s.handler.Awaits → Recent seen now) := by
  have hiff := awaits_iff h.tracks h.inv now
  rw [sees]
  cases hstarts : s.handler.starts now with
  | true =>
    rw [hstarts] at hiff
    have hnow : Recent (some now) now := by
      rintro _ ⟨⟩
      rw [Int.sub_self]
      decide
    exact iff_of_true (fun _ => hnow) fun hawaits => absurd (hiff.mp hawaits).2 (by decide)
  | false =>
    rw [hstarts] at hiff
    exact ⟨fun hprompt hawaits => hprompt (hiff.mp hawaits).1,
      fun hpunctual hstatus => hpunctual (hiff.mpr ⟨hstatus, rfl⟩)⟩

/-- With the timeout out of action it is left to the calls to come in time. -/
theorem prompt_iff (cells : Nat → UInt8) (bufferSize : Nat) (calls : List Call) :
    (start cells bufferSize).Prompt calls ↔ (start cells bufferSize).Punctual calls := by
  refine forall_congr' fun before => forall_congr' fun now => forall_congr' fun after =>
    imp_congr_right fun _ => ?_
  obtain ⟨r, h⟩ := Matches.run before (Matches.start cells bufferSize)
  rw [startSeen_snoc]
  exact prompt_call_iff h _ now

end History
end HaierProtocol
