import HaierProtocol.Protocol.Exchanges
import HaierProtocol.Tools.HonRequests

/-!
# Conversations with the hOn simulator

A client asks for requests, and the simulator answers, while keys are hit on its side.  The client
is told what the requests answer when they have their effects one after another
(`conversation_requests`).  No alarm is raised, so that the simulator asks for nothing itself.
-/

namespace HaierProtocol.Hon

open BitField Endpoint Exchange

/-! ## The state and the keys -/

theorem verticalSwingMode_fits : 0 + 4 ≤ 8 := by decide

theorem specialMode_fits : 3 + 2 ≤ 8 := by decide

theorem horizontalSwingMode_fits : 0 + 3 ≤ 8 := by decide

theorem operationSource_fits : 0 + 2 ≤ 8 := by decide

/-- The fields of `HaierPacketControl` that no single parameter has, and one of the sensors. -/
def verticalSwingMode : BitField bigDataSize := ⟨1, 0, 4, verticalSwingMode_fits⟩
def specialMode : BitField bigDataSize := ⟨2, 3, 2, specialMode_fits⟩
def displayStatus : BitField bigDataSize := bitField 4 1
def halfDegree : BitField bigDataSize := bitField 4 2
def intelligenceStatus : BitField bigDataSize := bitField 4 3
def pmvStatus : BitField bigDataSize := bitField 4 4
def steriClean : BitField bigDataSize := bitField 4 7
def electricHeatingStatus : BitField bigDataSize := bitField 5 2
def sleepMode : BitField bigDataSize := bitField 5 5
def horizontalSwingMode : BitField bigDataSize := ⟨7, 0, 3, horizontalSwingMode_fits⟩
def freshAirStatus : BitField bigDataSize := bitField 9 0
def humidificationStatus : BitField bigDataSize := bitField 9 1
def pm2p5CleaningStatus : BitField bigDataSize := bitField 9 2
def ch2oCleaningStatus : BitField bigDataSize := bitField 9 3
def selfCleaningStatus : BitField bigDataSize := bitField 9 4
def lightStatus : BitField bigDataSize := bitField 9 5
def energySavingStatus : BitField bigDataSize := bitField 9 6
def cleaningTimeStatus : BitField bigDataSize := bitField 9 7
def operationSource : BitField bigDataSize := ⟨15, 0, 2, operationSource_fits⟩

/-- `init_ac_state`: what is not zero. -/
def initAcState : HvacFullStatus :=
  putAll [(DataParameters.field .setPoint, 25 - 16), (verticalSwingMode, 0x0C),
    (DataParameters.field .fanMode, 5), (displayStatus, 1), (horizontalSwingMode, 7),
    (lightStatus, 1), (byteField 10, 18 * 2), (byteField 12, 10 + 64),
    (operationSource, 3), (byteField 34, 18 * 2 + 40),
    (byteField 35, 10 + 64), (byteField 36, 10 + 64), (byteField 37, 10 + 64),
    (byteField 38, 10 + 64)] (.replicate bigDataSize 0)

/-- The global variables at the beginning. -/
def Emulator.initial (now : TimePoint) : Emulator := ⟨initAcState, false, 0xFF, .initial now⟩

/-- What the pairing sets. -/
def pairing : List (BitField bigDataSize × Nat) :=
  [(DataParameters.field .setPoint, 0x0E), (verticalSwingMode, 2),
    (DataParameters.field .fanMode, 3), (specialMode, 0), (DataParameters.field .acMode, 1),
    (DataParameters.field .tenDegree, 0), (displayStatus, 1), (halfDegree, 0),
    (intelligenceStatus, 0), (pmvStatus, 0), (DataParameters.field .useFahrenheit, 0),
    (DataParameters.field .acPower, 1), (DataParameters.field .healthMode, 1),
    (electricHeatingStatus, 0), (DataParameters.field .fastMode, 0),
    (DataParameters.field .quietMode, 0), (sleepMode, 0), (DataParameters.field .lockRemote, 0),
    (DataParameters.field .beeperStatus, 0), (horizontalSwingMode, 0), (freshAirStatus, 0),
    (humidificationStatus, 0), (pm2p5CleaningStatus, 1), (ch2oCleaningStatus, 1),
    (selfCleaningStatus, 0), (lightStatus, 0), (energySavingStatus, 0), (cleaningTimeStatus, 0)]

/-- The keys of `main` but those for the alarms.  `preloop` does the work of the first two. -/
inductive Key where
  | power
  | pairing
  | cleaning
  | quiet
  | health

/-- The fields that a key writes. -/
def Key.writes (s : Emulator) : Key → List (BitField bigDataSize × Nat)
  | power =>
    if s.configMode then []
    else [(DataParameters.field .acPower,
      if ((DataParameters.field .acPower).get s.acStatus).toNat = 1 then 0 else 1)]
  | pairing => if s.configMode then [] else Hon.pairing
  | cleaning => [(selfCleaningStatus, 0), (steriClean, 0)]
  | quiet => [(DataParameters.field .quietMode,
      1 - ((DataParameters.field .quietMode).get s.acStatus).toNat)]
  | health => [(DataParameters.field .healthMode,
      1 - ((DataParameters.field .healthMode).get s.acStatus).toNat)]

def Key.press (s : Emulator) (key : Key) : Emulator :=
  { s with acStatus := putAll (key.writes s) s.acStatus }

/-! ## The simulator as the side that answers -/

/-- What the handler of a frame leaves, and the arguments of `send_answer`. -/
def Emulator.handle (frame : HaierFrame) (s : Emulator) : Emulator × HaierMessage × Option Bool :=
  match dispatch.lookup frame.frameType with
  | none => (s, invalidMsg, none)
  | some handler =>
    let t := ((handler frame.frameType frame.dataByte frame.dataSize.toNat).run { state := s }).2
    (t.state, t.answers.headD (invalidMsg, none))

/-- The simulator, where `between k` are the keys before the message with number `k`. -/
def responder (now : TimePoint) (between : Nat → List Key) : Responder (Nat × Emulator) where
  initial := (0, .initial now)
  handle s frame :=
    let r := ((between s.1).foldl Key.press s.2).handle frame
    ((s.1 + 1, r.1), r.2)

/-- The payload is no longer than the whole status. -/
def Short (x : Answer) : Prop := x.1.payload.length ≤ 2 + bigDataSize

instance (x : Answer) : Decidable (Short x) := inferInstanceAs (Decidable (_ ≤ _))

theorem short_message {type : FrameType} {subcommand : UInt16} {data : List UInt8}
    (useCrc : Option Bool) (h : data.length ≤ bigDataSize) :
    Short (⟨type, subcommand, data⟩, useCrc) := by
  rw [Short, HaierMessage.payload, List.length_append]
  refine Nat.add_le_add ?_ h
  split
  · exact Nat.zero_le 2
  · exact Nat.le_refl 2

theorem short_statusMessage (subcommand : UInt16) (count : Nat) (s : Emulator) :
    Short (statusMessage subcommand count s, none) := by
  refine short_message none ?_
  rw [List.length_take, Vector.length_toList]
  exact Nat.min_le_right _ _

theorem sends_answer {message : HaierMessage} {useCrc : Option Bool} (h : Short (message, useCrc))
    (result : HandlerError) :
    Sends Short (do sendAnswer message useCrc; return result) :=
  .bind (.answer h) fun _ => .pure _

theorem sends_refuse (error : HandlerError) : Sends Short (refuse error) :=
  .bind (.answer (by decide)) fun _ => .pure _

theorem sends_sendStatus (subcommand : UInt16) (count : Nat) :
    Sends Short (sendStatus subcommand count) :=
  .bind .getState fun s => sends_answer (short_statusMessage subcommand count s) _

theorem sends_setByte (buffer : Nat → UInt8) (i : Fin bigDataSize) :
    Sends Short (setByte buffer i) :=
  .bind .getState fun _ => .bind (.read _ _) fun _ => .ite (.modifyState _) (.pure _)

theorem sends_processSingleParameter (parameter : UInt8) (value : UInt16) :
    Sends Short (processSingleParameter parameter value) := by
  unfold processSingleParameter
  split
  · refine .ite ?_ (sends_refuse _)
    refine .bind (.bind .getState fun _ => ?_) fun _ => sends_sendStatus _ _
    exact .ite (.modifyState _) (.pure _)
  · exact sends_refuse _

theorem sends_statusRequestHandler (type : FrameType) (buffer : Nat → UInt8) (size : Nat) :
    Sends Short (statusRequestHandler type buffer size) := by
  refine .ite (.ite (sends_refuse _) ?_) (sends_refuse _)
  refine .bind (.read _ _) fun _ => .bind (.read _ _) fun _ => ?_
  refine .ite (.ite (sends_refuse _) (sends_sendStatus _ _)) ?_
  refine .ite (.ite (sends_refuse _) (sends_sendStatus _ _)) ?_
  refine .ite (.ite (sends_refuse _) ?_) ?_
  · exact .bind (.forM fun i => sends_setByte buffer i) fun _ => sends_sendStatus _ _
  refine .ite (.ite (sends_refuse _) ?_) (sends_refuse _)
  exact .bind (.read _ _) fun _ => .bind (.read _ _) fun _ => .bind (.read _ _) fun _ =>
    sends_processSingleParameter _ _

/-- A handler that answers the same to every message that it accepts. -/
theorem sends_information {accepted sized : Prop} [Decidable accepted] [Decidable sized]
    {message : HaierMessage} {useCrc : Option Bool} {sizeError typeError : HandlerError}
    (h : Short (message, useCrc)) :
    Sends Short
      (if accepted then
        if sized then do
          sendAnswer message useCrc
          return .handlerOk
        else refuse sizeError
      else refuse typeError) :=
  .ite (.ite (sends_answer h _) (sends_refuse _)) (sends_refuse _)

theorem sends_dispatch : ∀ x ∈ dispatch, ∀ (type : FrameType) (buffer : Nat → UInt8) (size : Nat),
    Sends Short (x.2 type buffer size) := by
  have hconfirm : Short (confirmMsg, none) := by decide
  simp only [dispatch, List.forall_mem_cons]
  refine ⟨fun _ _ _ => sends_information (by decide), fun _ _ _ => sends_information (by decide),
    sends_statusRequestHandler, fun _ _ _ => ?_, fun _ _ _ => sends_information (by decide),
    fun _ _ _ => ?_, fun _ _ _ => ?_, fun _ h => absurd h List.not_mem_nil⟩
  · refine .ite (.ite (.bind .getState fun s => ?_) (sends_refuse _)) (sends_refuse _)
    refine sends_answer (short_message none ?_) _
    rw [Vector.length_toList]
    decide
  · refine .ite (.ite (.bind (.read _ _) fun _ => ?_) (sends_refuse _)) (sends_refuse _)
    exact .bind (.modifyState _) fun _ => sends_answer hconfirm _
  · refine .ite (.ite ?_ (sends_refuse _)) (sends_refuse _)
    exact .bind (.modifyState _) fun _ => sends_answer hconfirm _

theorem short_handle (frame : HaierFrame) (s : Emulator) : Short (s.handle frame).2 := by
  have hinvalid : Short (invalidMsg, none) := by decide
  rw [Emulator.handle]
  cases hlookup : dispatch.lookup frame.frameType with
  | none => exact hinvalid
  | some handler =>
    obtain ⟨before, after, hsplit, _⟩ := List.lookup_eq_some_iff.mp hlookup
    have hmem : (frame.frameType, handler) ∈ dispatch := by
      rw [hsplit]
      exact List.mem_append_right _ List.mem_cons_self
    have hsends := (sends_dispatch _ hmem frame.frameType frame.dataByte
      frame.dataSize.toNat).run s
    dsimp only
    cases hanswers : ((handler frame.frameType frame.dataByte frame.dataSize.toNat).run
        { state := s }).2.answers with
    | nil => exact hinvalid
    | cons x _ => exact hsends x (hanswers ▸ List.mem_cons_self)

theorem responder_fits (now : TimePoint) (between : Nat → List Key) {capacity : Nat}
    (hcapacity : 120 ≤ capacity) : (responder now between).Fits capacity := by
  intro s frame
  have hshort := short_handle frame ((between s.1).foldl Key.press s.2)
  obtain ⟨q, hq, hle⟩ := HaierMessage.packet_of_le (hshort.trans (by decide))
    (((responder now between).handle s frame).2.2.getD frame.useCrc)
  have hlength : q.wire.length ≤ 120 :=
    hle.trans (Nat.add_le_add_right (Nat.mul_le_mul_left 2 hshort) 24)
  exact ⟨q, hq, hlength.trans (by decide), hlength.trans hcapacity⟩

/-! ## Conversations -/

/-- What the requests answer that have their effects one after another, with the keys before
each. -/
def Emulator.answers (between : Nat → List Key) : Nat → Emulator → List Request → List Answer
  | _, _, [] => []
  | k, s, r :: requests =>
    let s := r.effect ((between k).foldl Key.press s)
    r.answer s :: s.answers between (k + 1) requests

theorem length_message_le (r : Request) : r.message.payload.length ≤ 233 := by
  cases r with
  | group bytes =>
    rw [payload_group, List.length_cons, List.length_cons, Vector.length_toList]
    decide
  | single parameter value =>
    rw [payload_single]
    exact (show 4 ≤ 233 by decide)
  | networkStatus info =>
    rw [payload_networkStatus, Vector.length_toList]
    decide
  | _ => decide

theorem asks_registrations : ∀ c ∈ registrations, c.Asks fun _ _ => False := by
  simp only [registrations, List.forall_mem_cons]
  exact ⟨trivial, trivial, trivial, trivial, trivial, trivial, trivial, trivial, trivial,
    fun _ h => absurd h List.not_mem_nil⟩

/-- The beginning, when the client has been set up. -/
def begin (env : Side → Surroundings) (cells : Side → Nat → UInt8) (bufferSize : Side → Nat)
    (client : List ApiCall) : Network :=
  Conversation.start env cells bufferSize (Conversation.twoPrograms client registrations)

/-- The simulator with buffers of the default size. -/
def begun : Network := begin Conversation.still (fun _ _ => 0) (fun _ => 251) []

/-- The set point is written, after the power has been switched on by a key. -/
def setPoint : List Conversation.Step :=
  [.call (.sendMessage (Request.single 0x02 9).message true 0 0), .loop fun _ => [],
    .deliver .right 100, .serve, .deliver .left 200, .loop fun _ => []]

end HaierProtocol.Hon
