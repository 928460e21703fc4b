import HaierProtocol.Protocol.GivingUp
import HaierProtocol.Tools.AlarmReports

/-!
# The pace of the alarm reports

Whatever comes in and whatever is raised or reset: there is one report in the queue at most, and
between two reports there is the short interval, or the long one after a confirmation
(`run_paces_reports`).  As long as the alarms are on, the reports do not cease when nobody answers
(`run_reports_again`).
-/

namespace HaierProtocol.Hon

namespace HonSimulator

open Alarms Endpoint

variable {wordSize : Nat} {cells : Nat → UInt8} {bufferSize : Nat} {env : Surroundings}
  {s : HonSimulator} {first now : TimePoint}

/-! ## What `process_alarms` does -/

/-- Enough time has passed since the last report. -/
def Apart (paused : Bool) (previous now : TimePoint) : Prop :=
  (if paused then longAlarmReportInterval else shortAlarmReportInterval) <
    (now - previous).tdiv (milliseconds 1)

instance (paused : Bool) (previous now : TimePoint) : Decidable (Apart paused previous now) :=
  inferInstanceAs (Decidable (_ < _))

/-- Nothing, or all of this. -/
structure Announces (now : TimePoint) (h : ProtocolHandler) (a : Alarms) : Prop where
  alarmStopped : a.alarmStopped = false
  state : h.state = .idle
  queue : h.outgoingMessages = []
  apart : Apart a.alarmPaused a.lastAlarmMessage now

theorem processAlarms_announces {h : ProtocolHandler} {a : Alarms} (hall : Announces now h a) :
    a.processAlarms now h = ({ a with alarmPaused := false, lastAlarmMessage := now },
      [.sendMessage (report a.alarmStatusBuf) true 0 0]) := by
  have hfree : (!a.alarmStopped && !h.isWaitingForAnswer && h.outgoingMessages.length == 0) =
      true := by
    rw [hall.alarmStopped, hall.queue, ProtocolHandler.isWaitingForAnswer, hall.state]
    rfl
  have hapart := hall.apart
  simp only [processAlarms]
  rw [if_pos hfree, if_pos]
  cases hpaused : a.alarmPaused with
  | true =>
    rw [Apart, hpaused, if_pos rfl] at hapart
    simpa using hapart
  | false =>
    rw [Apart, hpaused, if_neg Bool.false_ne_true] at hapart
    simpa using hapart

theorem processAlarms_none {h : ProtocolHandler} {a : Alarms} (hnot : ¬Announces now h a) :
    a.processAlarms now h = (a, []) := by
  simp only [processAlarms]
  split
  · next hfree =>
    simp only [Bool.and_eq_true, Bool.not_eq_true', beq_iff_eq, List.length_eq_zero_iff,
      ProtocolHandler.isWaitingForAnswer] at hfree
    have hidle : h.state = .idle := by
      cases hstate : h.state with
      | idle => rfl
      | waitingForAnswer =>
        rw [hstate] at hfree
        exact absurd hfree.1.2 (by decide)
    have hlate : ¬Apart a.alarmPaused a.lastAlarmMessage now :=
      fun hapart => hnot ⟨hfree.1.1, hidle, hfree.2, hapart⟩
    rw [if_neg]
    intro htime
    refine hlate ?_
    cases hpaused : a.alarmPaused with
    | true =>
      rw [hpaused] at htime
      rw [Apart, if_pos rfl]
      simpa using htime
    | false =>
      rw [hpaused] at htime
      rw [Apart, if_neg Bool.false_ne_true]
      simpa using htime
  · rfl

theorem requestsOf_announced (wordSize : Nat) (env : Surroundings) (s : HonSimulator)
    (hall : Announces now s.endpoint.handler s.alarms) :
    (requestsOf (s.step wordSize env (.processAlarms now)).endpoint.trace).map (·.message) =
      (requestsOf s.endpoint.trace).map (·.message) ++ [report s.alarms.alarmStatusBuf] := by
  simp only [HonSimulator.step, processAlarms_announces hall]
  show (requestsOf (s.endpoint.trace ++ [_])).map _ = _
  rw [requestsOf_append, List.map_append]
  rfl

/-! ## Reports -/

/-- A report when it is queued, and whether the reports were paused before. -/
structure Report where
  time : TimePoint
  paused : Bool
  mask : Vector UInt8 alarmBufSize

def reportOf (s : HonSimulator) : Step → Option Report
  | .processAlarms now =>
    if (s.alarms.processAlarms now s.endpoint.handler).2.isEmpty then none
    else some ⟨now, s.alarms.alarmPaused, s.alarms.alarmStatusBuf⟩
  | _ => none

/-- The reports of a run. -/
def reports (wordSize : Nat) (env : Surroundings) : HonSimulator → List Step → List Report
  | _, [] => []
  | s, taken :: rest =>
    (s.reportOf taken).toList ++ reports wordSize env (s.step wordSize env taken) rest

/-- Every report is apart from the one before. -/
def AllApart : TimePoint → List Report → Prop
  | _, [] => True
  | previous, r :: rest => Apart r.paused previous r.time ∧ AllApart r.time rest

/-- When the last report was queued. -/
def lastTime (first : TimePoint) (rs : List Report) : TimePoint :=
  (rs.getLast?.map Report.time).getD first

theorem lastTime_cons (first : TimePoint) (r : Report) (rs : List Report) :
    lastTime first (r :: rs) = lastTime r.time rs := by
  cases rs with
  | nil => rfl
  | cons r' rs =>
    rw [lastTime, List.getLast?_cons_cons, lastTime, List.getLast?_cons]
    rfl

theorem AllApart.snoc : ∀ {rs : List Report} {first : TimePoint}, AllApart first rs →
    ∀ {r : Report}, Apart r.paused (lastTime first rs) r.time → AllApart first (rs ++ [r])
  | [], _, _, _, hapart => ⟨hapart, trivial⟩
  | _ :: _, _, ⟨hfirst, hrest⟩, _, hapart => ⟨hfirst, hrest.snoc (lastTime_cons _ _ _ ▸ hapart)⟩

theorem lastTime_snoc (first : TimePoint) (rs : List Report) (r : Report) :
    lastTime first (rs ++ [r]) = r.time := by
  rw [lastTime, List.getLast?_concat]
  rfl

/-- The intervals of the simulator are no longer than its time for an answer. -/
def longest : Int := milliseconds 1000

theorem react_lastAlarmMessage (a : Alarms) (invocation : Invocation) :
    (a.react invocation).lastAlarmMessage = a.lastAlarmMessage := by
  cases invocation with
  | message handler arrival =>
    simp only [Alarms.react, Alarms.stopAlarmHandler]
    split_ifs <;> rfl
  | answer handler requestType request arrival =>
    simp only [Alarms.react, Alarms.alarmStatusReportAnswerHandler]
    split_ifs <;> rfl
  | timeout => rfl

theorem foldl_react_lastAlarmMessage (invocations : List Invocation) (a : Alarms) :
    (invocations.foldl Alarms.react a).lastAlarmMessage = a.lastAlarmMessage := by
  induction invocations generalizing a with
  | nil => rfl
  | cons invocation rest ih => exact (ih _).trans (react_lastAlarmMessage a invocation)

/-- What is true between the steps of a run that has queued the reports `rs`. -/
structure Keeping (cells : Nat → UInt8) (bufferSize : Nat) (env : Surroundings)
    (first : TimePoint) (s : HonSimulator) (rs : List Report) : Prop where
  reached : ∃ steps, s.endpoint = (Endpoint.start cells bufferSize).run env steps ∧
    ∀ x ∈ steps, x.Within longest
  apart : AllApart first rs
  last : s.alarms.lastAlarmMessage = lastTime first rs
  asked : (requestsOf s.endpoint.trace).map (·.message) = rs.map fun r => report r.mask
  queue : s.endpoint.handler.outgoingMessages.length ≤ 1
  backlog : s.endpoint.backlog ≤ 3

namespace Keeping

variable {rs : List Report}

theorem within_registrations : ∀ c ∈ registrations, c.Within longest := by
  simp only [registrations, List.forall_mem_cons]
  exact ⟨⟨by decide, Int.le_refl _⟩, trivial, trivial, trivial, trivial, trivial, trivial, trivial,
    trivial, fun _ h => absurd h List.not_mem_nil⟩

theorem start (cells : Nat → UInt8) (bufferSize : Nat) (env : Surroundings) (now : TimePoint) :
    Keeping cells bufferSize env now (.start cells bufferSize env now) [] := by
  refine ⟨⟨_, rfl, ?_⟩, trivial, rfl, rfl, Nat.zero_le 1, Nat.zero_le 3⟩
  intro x hx
  obtain ⟨c, hc, rfl⟩ := List.mem_map.mp hx
  exact within_registrations c hc

theorem serves (h : Keeping cells bufferSize env first s rs) :
    ∃ d, Service.Serves s.endpoint d := by
  obtain ⟨steps, hsteps, _⟩ := h.reached
  rw [hsteps]
  exact Service.serves_run cells bufferSize env steps

theorem reached_snoc (h : Keeping cells bufferSize env first s rs) (x : Endpoint.Step)
    (hx : x.Within longest) :
    ∃ steps, s.endpoint.step env x = (Endpoint.start cells bufferSize).run env steps ∧
      ∀ x ∈ steps, x.Within longest := by
  obtain ⟨steps, hsteps, hwithin⟩ := h.reached
  refine ⟨steps ++ [x], ?_, List.forall_mem_append.mpr ⟨hwithin, ?_⟩⟩
  · rw [Endpoint.run_snoc, ← hsteps]
  · exact fun y hy => List.mem_singleton.mp hy ▸ hx

/-- The mask and the flags are nobody else's business. -/
theorem alarms (h : Keeping cells bufferSize env first s rs) {a : Alarms}
    (hlast : a.lastAlarmMessage = s.alarms.lastAlarmMessage) :
    Keeping cells bufferSize env first { s with alarms := a } rs :=
  ⟨h.reached, h.apart, hlast.trans h.last, h.asked, h.queue, h.backlog⟩

theorem processAlarms (h : Keeping cells bufferSize env first s rs) (wordSize : Nat)
    (now : TimePoint) :
    Keeping cells bufferSize env first (s.step wordSize env (.processAlarms now))
      (rs ++ (s.reportOf (.processAlarms now)).toList) := by
  by_cases hall : Announces now s.endpoint.handler s.alarms
  · have hsent := processAlarms_announces hall
    have hreport : s.reportOf (.processAlarms now) =
        some ⟨now, s.alarms.alarmPaused, s.alarms.alarmStatusBuf⟩ := by
      rw [reportOf, hsent]
      rfl
    have hzero : IntervalWithin longest 0 := ⟨Int.le_refl _, by decide⟩
    rw [hreport]
    simp only [HonSimulator.step, hsent]
    refine ⟨h.reached_snoc (.call (.sendMessage _ true 0 0)) hzero, h.apart.snoc ?_,
      (lastTime_snoc first rs ⟨now, s.alarms.alarmPaused, s.alarms.alarmStatusBuf⟩).symm,
      ?_, ?_, ?_⟩
    · rw [← h.last]
      exact hall.apart
    · have hasked := requestsOf_announced wordSize env s hall
      simp only [HonSimulator.step, hsent] at hasked
      rw [hasked, h.asked, List.map_append]
      rfl
    · show (s.endpoint.handler.outgoingMessages ++ [_]).length ≤ 1
      rw [hall.queue]
      exact Nat.le_refl 1
    · show effortOf (s.endpoint.handler.outgoingMessages ++ [_]) +
        (if s.endpoint.handler.state = .waitingForAnswer then 1 else 0) ≤ 3
      rw [hall.queue, hall.state]
      exact Nat.le_refl 3
  · have hnone := processAlarms_none hall
    have hreport : s.reportOf (.processAlarms now) = none := by
      rw [reportOf, hnone]
      rfl
    rw [hreport]
    simp only [HonSimulator.step, hnone]
    rw [show (none : Option Report).toList = [] from rfl, List.append_nil]
    exact h

theorem loop (h : Keeping cells bufferSize env first s rs) (wordSize : Nat) (answers : Answers) :
    Keeping cells bufferSize env first (s.step wordSize env (.loop answers)) rs := by
  have hanswers := reply_onlyAnswers answers s.alarms
  obtain ⟨d, hserves⟩ := h.serves
  have hrequests := requestsOf_loop hserves hanswers env
  have hspends : (s.endpoint.loop env (reply answers s.alarms)).backlog + 0 +
      s.endpoint.ordered ≤ s.endpoint.backlog +
        (s.endpoint.loop env (reply answers s.alarms)).ordered :=
    (spends_loop env (reply answers s.alarms) s.endpoint).of_le (Nat.zero_le _)
  have hbacklog := h.backlog
  refine ⟨h.reached_snoc (.loop (reply answers s.alarms)) ?_, h.apart, ?_, ?_, ?_, ?_⟩
  · intro invocation c hc
    obtain ⟨_, _, rfl⟩ := hanswers invocation c hc
    trivial
  · exact (foldl_react_lastAlarmMessage _ _).trans h.last
  · exact (congrArg _ hrequests).trans h.asked
  · exact (length_loop hserves hanswers env).trans h.queue
  · show (s.endpoint.loop env (reply answers s.alarms)).backlog ≤ 3
    rw [ordered_loop hserves hanswers env] at hspends
    omega

theorem step (h : Keeping cells bufferSize env first s rs) (wordSize : Nat) (taken : Step) :
    Keeping cells bufferSize env first (s.step wordSize env taken)
      (rs ++ (s.reportOf taken).toList) := by
  cases taken with
  | processAlarms now => exact h.processAlarms wordSize now
  | startAlarm alarmId =>
    refine (List.append_nil rs).symm ▸ h.alarms ?_
    rw [startAlarm]
    split <;> rfl
  | resetAlarms => exact (List.append_nil rs).symm ▸ h.alarms rfl
  | arrive bytes =>
    exact (List.append_nil rs).symm ▸ ⟨h.reached_snoc (.arrive bytes) trivial, h.apart, h.last,
      h.asked, h.queue, h.backlog⟩
  | loop answers => exact (List.append_nil rs).symm ▸ h.loop wordSize answers

theorem run (wordSize : Nat) : ∀ (steps : List Step) {s : HonSimulator} {rs : List Report},
    Keeping cells bufferSize env first s rs →
      Keeping cells bufferSize env first (s.run wordSize env steps)
        (rs ++ reports wordSize env s steps)
  | [], _, _, h => (List.append_nil _).symm ▸ h
  | taken :: rest, s, rs, h => by
    have hrest := Keeping.run wordSize rest (h.step wordSize taken)
    rw [List.append_assoc] at hrest
    exact hrest

end Keeping

/-- In every run: what is asked of the protocol handler are the reports of the masks as they are,
one at a time.  Between two reports there are more than 300 ms, or more than 5 s if the reports were
paused when the second one was queued. -/
theorem run_paces_reports (wordSize : Nat) (cells : Nat → UInt8) (bufferSize : Nat)
    (env : Surroundings) (now : TimePoint) (steps : List Step) :
    let s := (start cells bufferSize env now).run wordSize env steps
    let rs := reports wordSize env (start cells bufferSize env now) steps
    AllApart now rs ∧
      (requestsOf s.endpoint.trace).map (·.message) = rs.map (fun r => report r.mask) ∧
      s.endpoint.handler.outgoingMessages.length ≤ 1 := by
  intro s rs
  have h := (Keeping.start cells bufferSize env now).run wordSize steps
  exact ⟨h.apart, h.asked, h.queue⟩

/-! ## Reports that nobody answers -/

theorem invocations_append (trace more : List Event) :
    invocations trace.length (trace ++ more) = invocations 0 more := by
  rw [invocations, invocations, List.drop_left, List.drop_zero]

/-- Timeouts do not concern the alarms. -/
theorem foldl_react_timeouts (a : Alarms) : ∀ (invocations : List Invocation),
    (∀ invocation ∈ invocations, invocation.IsTimeout) → invocations.foldl Alarms.react a = a
  | [], _ => rfl
  | .timeout _ _ _ :: rest, h =>
    foldl_react_timeouts a rest fun invocation hin => h invocation (List.mem_cons_of_mem _ hin)
  | .message _ _ :: _, h => (h _ List.mem_cons_self).elim
  | .answer _ _ _ _ :: _, h => (h _ List.mem_cons_self).elim

/-- Without a frame the alarms stay as they are. -/
theorem alarms_loop (h : Keeping cells bufferSize env first s rs) (wordSize : Nat)
    (answers : Answers)
    (hnone : (s.endpoint.receive env).handler.transport.incomingQueue = []) :
    s.step wordSize env (.loop answers) =
      { s with endpoint := s.endpoint.loop env (reply answers s.alarms) } := by
  obtain ⟨d, hserves⟩ := h.serves
  obtain ⟨more, htrace, hcalled⟩ :=
    (changes_loop_none hserves.processing env (reply answers s.alarms) hnone).adds
  simp only [HonSimulator.step]
  rw [htrace, invocations_append, foldl_react_timeouts]
  intro invocation hmem
  obtain ⟨event, hevent, hsome⟩ := List.mem_filterMap.mp hmem
  cases event with
  | invoked invocation' =>
    cases hsome
    exact hcalled _ hevent
  | _ => cases hsome

theorem alarms_loops (wordSize : Nat) : ∀ (loops : List Answers) {s : HonSimulator}
    {rs : List Report}, Keeping cells bufferSize env first s rs →
      DeadLine env longest s.endpoint (loops.map (reply · s.alarms)) →
        s.run wordSize env (loops.map .loop) =
          { s with
            endpoint := s.endpoint.run env ((loops.map (reply · s.alarms)).map .loop) }
  | [], _, _, _, _ => rfl
  | answers :: loops, s, _, h, hdead => by
    obtain ⟨_, hnone, _, hrest⟩ := hdead
    have hstep := alarms_loop h wordSize answers hnone
    have hkept := h.loop wordSize answers
    rw [hstep] at hkept
    show (s.step wordSize env (.loop answers)).run wordSize env (loops.map .loop) = _
    rw [hstep, alarms_loops wordSize loops hkept hrest]
    rfl

/-- As long as the alarms are on: when nothing comes in, and `loop` is called three times, each time
later than a second after the one before, the report is given up, and `process_alarms` queues
another one as soon as the time has come. -/
theorem run_reports_again (wordSize : Nat) (cells : Nat → UInt8) (bufferSize : Nat)
    (env : Surroundings) (hclock : Monotone env.clock) (hstart : 0 ≤ env.clock 0)
    (now : TimePoint) (steps : List Step) (loops : List Answers) (later : TimePoint)
    (hloops : 3 ≤ loops.length) :
    let s := (start cells bufferSize env now).run wordSize env steps
    let s' := (s.run wordSize env (loops.map .loop)).step wordSize env (.processAlarms later)
    s.alarms.alarmStopped = false →
      DeadLine env longest s.endpoint (loops.map (reply · s.alarms)) →
        Apart s.alarms.alarmPaused s.alarms.lastAlarmMessage later →
          (requestsOf s'.endpoint.trace).map (·.message) =
            (requestsOf s.endpoint.trace).map (·.message) ++ [report s.alarms.alarmStatusBuf] := by
  intro s s' hon hdead hapart
  have h := (Keeping.start cells bufferSize env now).run wordSize steps
  obtain ⟨d, hserves⟩ := h.serves
  obtain ⟨before, hbefore, hwithin⟩ := h.reached
  obtain ⟨_, hahead⟩ := within_run hclock (by decide) hstart cells bufferSize before hwithin
  rw [← hbefore] at hahead
  have hdone := backlog_dead hclock (by decide) (loops.map (reply · s.alarms)) hserves hahead hdead
  have hbacklog := h.backlog
  have hrequests := requestsOf_dead (loops.map (reply · s.alarms)) hserves hdead
  have hrun := alarms_loops wordSize loops h hdead
  rw [List.length_map] at hdone
  obtain ⟨hqueue, hidle⟩ := backlog_eq_zero.mp (Nat.le_zero.mp (hdone.trans (by omega)))
  have hall : Announces later (s.run wordSize env (loops.map .loop)).endpoint.handler
      (s.run wordSize env (loops.map .loop)).alarms := by
    rw [hrun]
    exact ⟨hon, hidle, hqueue, hapart⟩
  refine (requestsOf_announced wordSize env _ hall).trans ?_
  rw [hrun]
  exact congrArg (List.map _ · ++ [_]) hrequests

def everyTwoSeconds : Surroundings := ⟨fun n => n * 2000000000, fun _ _ => 0, fun _ _ => 0⟩

def threeLoops : List Answers := List.replicate 3 fun _ => []

/-- An alarm is raised, its report is written, and nobody answers. -/
theorem run_reports_again_unanswered :
    let s := (start (fun _ => 0) 251 everyTwoSeconds 0).run 8 everyTwoSeconds reported
    let s' := (s.run 8 everyTwoSeconds (threeLoops.map .loop)).step 8 everyTwoSeconds
      (.processAlarms 10000000000)
    (requestsOf s'.endpoint.trace).map (·.message) =
      (requestsOf s.endpoint.trace).map (·.message) ++ [report s.alarms.alarmStatusBuf] := by
  have hclock : Monotone everyTwoSeconds.clock := by
    intro m n hle
    show (m : Int) * 2000000000 ≤ n * 2000000000
    omega
  refine run_reports_again 8 (fun _ => 0) 251 everyTwoSeconds hclock (by decide) 0 reported
    threeLoops 10000000000 (by decide) (by decide +kernel) ?_ (by decide +kernel)
  exact ⟨reply_onlyAnswers _ _, by decide +kernel, by decide +kernel, reply_onlyAnswers _ _,
    by decide +kernel, by decide +kernel, reply_onlyAnswers _ _, by decide +kernel,
    by decide +kernel, trivial⟩

end HonSimulator

end HaierProtocol.Hon
