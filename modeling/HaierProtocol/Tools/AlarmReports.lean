import HaierProtocol.Protocol.Answering
import HaierProtocol.Protocol.Deadline
import HaierProtocol.Tools.HonServer

/-!
# Confirmed alarm reports

A report is a copy of the mask, and a confirmation is judged by the mask as it is when the
confirmation comes in.  The two agree as long as the mask is not changed while a report is queued or
waits for its answer.
-/

namespace HaierProtocol.Hon

namespace HonSimulator

open Alarms

variable {wordSize : Nat} {env : Surroundings} {s : HonSimulator}

/-! ## Handlers -/

theorem stopAlarmHandler_alarmStatusBuf (type : FrameType) (size : Nat) (a : Alarms) :
    (a.stopAlarmHandler type size).1.alarmStatusBuf = a.alarmStatusBuf := by
  unfold stopAlarmHandler
  split_ifs <;> rfl

theorem alarmStatusReportAnswerHandler_alarmStatusBuf (requestType messageType : FrameType)
    (dataSize : Nat) (a : Alarms) :
    (a.alarmStatusReportAnswerHandler requestType messageType dataSize).1.alarmStatusBuf =
      a.alarmStatusBuf := by
  unfold alarmStatusReportAnswerHandler
  split_ifs <;> rfl

/-- Handlers leave the mask as it is. -/
theorem react_alarmStatusBuf (a : Alarms) (invocation : Invocation) :
    (a.react invocation).alarmStatusBuf = a.alarmStatusBuf := by
  cases invocation with
  | message handler arrival =>
    simp only [react]
    split
    · exact stopAlarmHandler_alarmStatusBuf _ _ a
    · rfl
  | answer handler requestType request arrival =>
    simp only [react]
    split
    · exact alarmStatusReportAnswerHandler_alarmStatusBuf _ _ _ a
    · rfl
  | timeout => rfl

theorem foldl_react_alarmStatusBuf (invocations : List Invocation) (a : Alarms) :
    (invocations.foldl Alarms.react a).alarmStatusBuf = a.alarmStatusBuf := by
  induction invocations generalizing a with
  | nil => rfl
  | cons invocation rest ih => exact (ih _).trans (react_alarmStatusBuf a invocation)

theorem reply_onlyAnswers (answers : Answers) (a : Alarms) :
    Endpoint.OnlyAnswers (reply answers a) := by
  intro invocation c hc
  cases invocation with
  | message handler arrival =>
    simp only [reply] at hc
    split at hc
    · exact ⟨_, _, List.mem_singleton.mp hc⟩
    · obtain ⟨answer, _, rfl⟩ := List.mem_map.mp hc
      exact ⟨_, _, rfl⟩
  | answer => cases hc
  | timeout => cases hc

/-- A report is queued when there is nothing else to send, or nothing happens. -/
theorem processAlarms_cases (now : TimePoint) (h : ProtocolHandler) (a : Alarms) :
    a.processAlarms now h = (a, []) ∨ ∃ alarms : Alarms, h.outgoingMessages = [] ∧
      alarms.alarmStatusBuf = a.alarmStatusBuf ∧
      a.processAlarms now h = (alarms, [.sendMessage (report a.alarmStatusBuf) true 0 0]) := by
  simp only [processAlarms]
  split
  · next hfree =>
    simp only [Bool.and_eq_true, beq_iff_eq, List.length_eq_zero_iff] at hfree
    split
    · exact .inr ⟨{ a with alarmPaused := false, lastAlarmMessage := now }, hfree.2, rfl, rfl⟩
    · exact .inl rfl
  · exact .inl rfl

/-! ## Reports -/

/-- Every report in the queue is one of the mask as it is. -/
structure Reporting (cells : Nat → UInt8) (bufferSize : Nat) (env : Surroundings)
    (s : HonSimulator) : Prop where
  reached : ∃ steps, s.endpoint = (Endpoint.start cells bufferSize).run env steps
  reports : ∀ item ∈ s.endpoint.handler.outgoingMessages,
    item.message = report s.alarms.alarmStatusBuf

/-- When a call of `loop` finds a report confirmed, what was written for it is the report of the
mask at that moment. -/
def Truthful (env : Surroundings) (answers : Answers) (s : HonSimulator) : Prop :=
  ∀ before after requestType request arrival,
    (s.endpoint.loop env (reply answers s.alarms)).trace = before ++
      .invoked (.answer alarmStatusReportAnswerRef requestType request arrival) :: after →
    s.endpoint.trace <+: before →
    let alarms := (invocations s.endpoint.trace.length before).foldl react s.alarms
    let frame := arrival.frame.frame
    (alarms.alarmStatusReportAnswerHandler requestType frame.frameType frame.dataSize.toNat).2 =
      .handlerOk →
    ∃ w id, request = some id ∧ (writes before).getLast? = some w ∧ w.origin = .request id ∧
      w.message = report alarms.alarmStatusBuf

/-- The mask is not changed while a report is queued or waits for its answer. -/
def Harmless (wordSize : Nat) (s : HonSimulator) : Step → Prop
  | .startAlarm alarmId => s.endpoint.handler.outgoingMessages = [] ∨
      (s.alarms.startAlarm alarmId).1.alarmStatusBuf = s.alarms.alarmStatusBuf
  | .resetAlarms => s.endpoint.handler.outgoingMessages = [] ∨
      (s.alarms.resetAlarms wordSize).alarmStatusBuf = s.alarms.alarmStatusBuf
  | _ => True

instance (s : HonSimulator) : (taken : Step) → Decidable (s.Harmless wordSize taken)
  | .startAlarm _ => inferInstanceAs (Decidable (_ ∨ _))
  | .resetAlarms => inferInstanceAs (Decidable (_ ∨ _))
  | .processAlarms _ => .isTrue trivial
  | .arrive _ => .isTrue trivial
  | .loop _ => .isTrue trivial

variable {cells : Nat → UInt8} {bufferSize : Nat}

namespace Reporting

theorem start (cells : Nat → UInt8) (bufferSize : Nat) (env : Surroundings) (now : TimePoint) :
    Reporting cells bufferSize env (.start cells bufferSize env now) :=
  ⟨⟨_, rfl⟩, fun _ h => absurd h List.not_mem_nil⟩

theorem serves (h : Reporting cells bufferSize env s) : ∃ d, Service.Serves s.endpoint d := by
  obtain ⟨steps, hsteps⟩ := h.reached
  rw [hsteps]
  exact Service.serves_run cells bufferSize env steps

theorem truthful (h : Reporting cells bufferSize env s) (answers : Answers) :
    Truthful env answers s := by
  intro before after requestType request arrival htrace hlater alarms frame _
  obtain ⟨d, hserves⟩ := h.serves
  obtain ⟨w, id, hrequest, hlast, horigin, hmessage⟩ := Endpoint.loop_answered
    (M := fun message => message = report s.alarms.alarmStatusBuf) hserves
    (reply_onlyAnswers answers s.alarms) env h.reports htrace hlater
  exact ⟨w, id, hrequest, hlast, horigin,
    hmessage.trans (congrArg report (foldl_react_alarmStatusBuf _ _).symm)⟩

/-- With another mask there is no report in the queue. -/
theorem masked (h : Reporting cells bufferSize env s) {alarms : Alarms}
    (hmask : s.endpoint.handler.outgoingMessages = [] ∨
      alarms.alarmStatusBuf = s.alarms.alarmStatusBuf) :
    Reporting cells bufferSize env { s with alarms } := by
  refine ⟨h.reached, ?_⟩
  obtain hempty | hsame := hmask
  · exact fun item hitem => absurd (hempty ▸ hitem) List.not_mem_nil
  · exact fun item hitem => (h.reports item hitem).trans (congrArg report hsame.symm)

theorem processAlarms (h : Reporting cells bufferSize env s) (wordSize : Nat) (now : TimePoint) :
    Reporting cells bufferSize env (s.step wordSize env (.processAlarms now)) := by
  rcases processAlarms_cases now s.endpoint.handler s.alarms with
    hnone | ⟨alarms, hempty, hmask, hsent⟩
  · simp only [HonSimulator.step, hnone]
    exact h
  · obtain ⟨steps, hsteps⟩ := h.reached
    simp only [HonSimulator.step, hsent]
    refine ⟨⟨steps ++ [.call (.sendMessage (report s.alarms.alarmStatusBuf) true 0 0)], ?_⟩, ?_⟩
    · rw [Endpoint.run_snoc, ← hsteps]
      rfl
    · intro item hitem
      have hqueue : item ∈ s.endpoint.handler.outgoingMessages ++
          [.request s.endpoint.nextId (report s.alarms.alarmStatusBuf) true 0 0] := hitem
      rw [hempty, List.nil_append, List.mem_singleton] at hqueue
      rw [hqueue, hmask]
      rfl

theorem loop (h : Reporting cells bufferSize env s) (wordSize : Nat) (answers : Answers) :
    Reporting cells bufferSize env (s.step wordSize env (.loop answers)) := by
  obtain ⟨steps, hsteps⟩ := h.reached
  obtain ⟨d, hserves⟩ := h.serves
  refine ⟨⟨steps ++ [.loop (reply answers s.alarms)], ?_⟩, ?_⟩
  · rw [Endpoint.run_snoc, ← hsteps]
    rfl
  · have hmessages := Endpoint.loop_messages
      (M := fun message => message = report s.alarms.alarmStatusBuf) hserves
      (reply_onlyAnswers answers s.alarms) env h.reports
    intro item hitem
    exact (hmessages item hitem).trans (congrArg report (foldl_react_alarmStatusBuf _ _).symm)

theorem step (h : Reporting cells bufferSize env s) {taken : Step}
    (hharmless : s.Harmless wordSize taken) :
    Reporting cells bufferSize env (s.step wordSize env taken) := by
  cases taken with
  | startAlarm alarmId => exact h.masked hharmless
  | resetAlarms => exact h.masked hharmless
  | processAlarms now => exact h.processAlarms wordSize now
  | arrive bytes =>
    obtain ⟨steps, hsteps⟩ := h.reached
    refine ⟨⟨steps ++ [.arrive bytes], ?_⟩, h.reports⟩
    rw [Endpoint.run_snoc, ← hsteps]
    rfl
  | loop answers => exact h.loop wordSize answers

end Reporting

/-! ## Runs -/

/-- No step of the run changes the mask while a report is queued or waits for its answer. -/
def HarmlessRun (wordSize : Nat) (env : Surroundings) : HonSimulator → List Step → Prop
  | _, [] => True
  | s, taken :: rest => s.Harmless wordSize taken ∧
      HarmlessRun wordSize env (s.step wordSize env taken) rest

instance decidableHarmlessRun : (s : HonSimulator) → (steps : List Step) →
    Decidable (HarmlessRun wordSize env s steps)
  | _, [] => .isTrue trivial
  | s, taken :: rest =>
    have := decidableHarmlessRun (s.step wordSize env taken) rest
    inferInstanceAs (Decidable (_ ∧ _))

theorem Reporting.run {steps : List Step} (h : Reporting cells bufferSize env s)
    (hharmless : HarmlessRun wordSize env s steps) {before : List Step} {answers : Answers}
    (hmoment : before ++ [.loop answers] <+: steps) :
    Truthful env answers (s.run wordSize env before) := by
  induction steps generalizing s before with
  | nil => simp at hmoment
  | cons taken steps ih =>
    cases before with
    | nil => exact h.truthful answers
    | cons first before =>
      obtain ⟨rfl, hrest⟩ := List.cons_prefix_cons.mp hmoment
      exact ih (h.step hharmless.1) hharmless.2 hrest

/-- In a run that changes the mask only while no report is under way, every confirmation is one of
the mask as it is. -/
theorem run_truthful (wordSize : Nat) (cells : Nat → UInt8) (bufferSize : Nat)
    (env : Surroundings) (now : TimePoint) (steps : List Step)
    (hharmless : HarmlessRun wordSize env (.start cells bufferSize env now) steps)
    (before : List Step) (answers : Answers) (hmoment : before ++ [.loop answers] <+: steps) :
    Truthful env answers ((start cells bufferSize env now).run wordSize env before) :=
  (Reporting.start cells bufferSize env now).run hharmless hmoment

/-- A clock that stands still. -/
def oneSecond : Surroundings := ⟨fun _ => 1000000000, fun _ _ => 0, fun _ _ => 0⟩

/-- An alarm is raised, and its report is written. -/
def reported : List Step :=
  [.startAlarm 0, .processAlarms 1000000000, .loop fun _ => []]

/-- The other side confirms. -/
def confirmation : Step := .arrive (Packet.wire ⟨typeConfirm, [], true, noPayload_le⟩)

theorem run_truthful_reported :
    Truthful oneSecond (fun _ => [])
      ((start (fun _ => 0) 251 oneSecond 0).run 8 oneSecond (reported ++ [confirmation])) :=
  run_truthful 8 (fun _ => 0) 251 oneSecond 0
    (reported ++ [confirmation] ++ [.loop fun _ => []]) (by decide +kernel) _ _ List.prefix_rfl

/-- The alarms are reset before the confirmation comes in: the reports stop, and the last one was
not that of the cleared mask. -/
theorem reset_not_truthful :
    let s := (start (fun _ => 0) 251 oneSecond 0).run 8 oneSecond
      (reported ++ [.resetAlarms, confirmation])
    ¬Truthful oneSecond (fun _ => []) s ∧
      (s.step 8 oneSecond (.loop fun _ => [])).alarms.alarmStopped = true := by
  intro s
  let trace := (s.endpoint.loop oneSecond (reply (fun _ => []) s.alarms)).trace
  refine ⟨fun h => ?_, by decide +kernel⟩
  obtain ⟨w, id, -, hlast, -, hmessage⟩ := h (trace.take 9) (trace.drop 10) typeAlarmStatus (some 0)
    (s.endpoint.receive oneSecond).popFrame.2 (by decide +kernel) (by decide +kernel)
    (by decide +kernel)
  have hwritten : (writes (trace.take 9)).getLast?.map Write.message =
      some (report (.replicate alarmBufSize 0)) := by
    rw [hlast, Option.map_some, hmessage]
    decide +kernel
  revert hwritten
  decide +kernel

end HonSimulator

end HaierProtocol.Hon
