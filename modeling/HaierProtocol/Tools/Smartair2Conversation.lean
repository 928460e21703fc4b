import HaierProtocol.Protocol.Exchanges
import HaierProtocol.Tools.Smartair2Simulator

/-!
# Conversations with the SmartAir2 simulator

A client asks for commands, and the whole simulator is at the other end of the line: its handlers,
and between two messages any number of rounds with ticks and keys.  What the client is told are the
statuses of a panel that executes the commands one after another (`conversation_statuses`).
-/

namespace HaierProtocol.Smartair2

open BitField Endpoint Exchange Hon

/-- What `main` and `simulator_main` set. -/
def registrations : List ApiCall :=
  [.setAnswerTimeout 1000, .setMessageHandler typeGetDeviceVersion (.user 0),
    .setMessageHandler typeGetDeviceId (.user 1), .setMessageHandler typeControl (.user 2),
    .setMessageHandler typeReportNetworkStatus (.user 3)]

/-! ## The simulator as the side that answers -/

/-- A call of `preloop`. -/
structure Round where
  started : ℤ
  now : ℤ
  file : Option ControlFile := none
  toggle : Bool := false
  pairing : Bool := false

def Round.step (r : Round) : Application.Step :=
  .preloop r.started r.now r.file r.toggle r.pairing

namespace Application

variable (stod : String → Option ℚ)

/-- What the handler of a frame leaves, and the arguments of `send_answer`. -/
def handle (frame : HaierFrame) (a : Application) : Application × HaierMessage × Option Bool :=
  let a' := a.receive frame.frameType frame.dataByte frame.dataSize.toNat
  (a', (a'.answers.drop a.answers.length).headD (invalidMsg, none))

/-- The simulator, where `between k` are the rounds before the message with number `k`. -/
def responder (now : ℤ) (file : Option ControlFile) (between : Nat → List Round) :
    Responder (Nat × Application) where
  initial := (0, .start stod now file)
  handle s frame :=
    let r := (s.2.run stod ((between s.1).map Round.step)).handle frame
    ((s.1 + 1, r.1), r.2)

end Application

variable {stod : String → Option ℚ} {a : Application} {p : Panel}

theorem handle_eq {frame : HaierFrame} {handler : Handler} {result : HandlerError} {s' : Server}
    {x : Answer} (hlookup : handlers.lookup frame.frameType = some handler)
    (h : Yields (handler frame.frameType frame.dataByte frame.dataSize.toNat)
      { acStatus := a.acStatus } result s' [x]) :
    a.handle frame = (a.receive frame.frameType frame.dataByte frame.dataSize.toNat, x) := by
  rw [Application.handle, receive_eq hlookup h]
  simp

/-- All answers are short. -/
theorem short_handle (frame : HaierFrame) (a : Application) : Short (a.handle frame).2 := by
  cases hlookup : handlers.lookup frame.frameType with
  | none =>
    rw [Application.handle, Application.receive, hlookup]
    simp only [List.drop_length, List.headD_nil]
    decide
  | some handler =>
    obtain ⟨_, _, x, hyields, hshort, _⟩ := yields_handler hlookup _ _ _
    rw [handle_eq hlookup hyields]
    exact hshort

theorem responder_fits (stod : String → Option ℚ) (now : ℤ) (file : Option ControlFile)
    (between : Nat → List Round) {capacity : Nat} (hcapacity : 76 ≤ capacity) :
    (Application.responder stod now file between).Fits capacity := by
  intro s frame
  have hshort := short_handle frame (s.2.run stod ((between s.1).map Round.step))
  obtain ⟨q, hq, hle⟩ := HaierMessage.packet_of_le (hshort.trans (by decide))
    (((Application.responder stod now file between).handle s frame).2.2.getD frame.useCrc)
  have hlength : q.wire.length ≤ 76 :=
    hle.trans (Nat.add_le_add_right (Nat.mul_le_mul_left 2 hshort) 24)
  exact ⟨q, hq, hlength.trans (by decide), hlength.trans hcapacity⟩

/-! ## The panel as the side that answers -/

/-- What a panel tells that executes the commands, with the rounds before each of them. -/
def Panel.statuses (between : Nat → List Round) : Nat → Panel → List Command → List Answer
  | _, _, [] => []
  | k, p, c :: commands =>
    let p := p.run ((between k).map Round.step)
    (c.status p.acStatus, none) :: statuses between (k + 1)
      { p with
        acStatus := c.apply p.acStatus
        answers := p.answers ++ [(c.status p.acStatus, none)] } commands

/-! ## Requests -/

theorem payload_group (bytes : AcStatus) :
    (Command.group bytes).message.payload = 0x4D :: 0x5F :: bytes.toList := by
  have hsubcommand : ¬(0x4D5F : UInt16) = noSubcommand := by decide
  have hbytes : [((0x4D5F : UInt16) >>> 8).toUInt8, ((0x4D5F : UInt16) &&& 0xFF).toUInt8] =
      [0x4D, 0x5F] := by decide
  rw [Command.message, HaierMessage.payload, if_neg hsubcommand, hbytes]
  rfl

/-- The handler finds the command in the frame of its message. -/
theorem parse_of_presents {frame : HaierFrame} {c : Command} {useCrc : Bool}
    (h : Presents frame c.message useCrc) :
    Command.parse frame.dataByte frame.dataSize.toNat = some c := by
  have hbyte := h.dataByte
  rw [h.dataSize, Command.parse, hbyte 0, hbyte 1]
  cases c with
  | query => rfl
  | power on =>
    cases on with
    | true => rfl
    | false => rfl
  | group bytes =>
    have hpayload := payload_group bytes
    have hlength : (0x4D :: 0x5F :: bytes.toList).length = 2 + controlSize := by
      rw [List.length_cons, List.length_cons, Vector.length_toList]
      omega
    have hlong : ¬2 + controlSize = 2 := by decide
    have hread : (Vector.ofFn fun i : Fin controlSize => frame.dataByte (2 + i)) = bytes := by
      refine Vector.ext fun i hi => ?_
      rw [Vector.getElem_ofFn, hbyte, hpayload, Nat.add_comm, List.getD_cons_succ,
        List.getD_cons_succ, List.getD_eq_getElem _ _ (by rwa [Vector.length_toList])]
      exact Vector.getElem_toList _
    rw [hpayload, hlength, if_neg fun h => hlong h.1, if_neg fun h => hlong h.1,
      if_neg fun h => hlong h.1, if_pos ⟨rfl, rfl, rfl⟩, hread]

theorem length_message_le (c : Command) : c.message.payload.length ≤ 233 := by
  cases c with
  | query => decide
  | power on =>
    cases on with
    | true => decide
    | false => decide
  | group bytes =>
    rw [payload_group, List.length_cons, List.length_cons, Vector.length_toList]
    decide

theorem frameType_message (c : Command) : c.message.frameType = typeControl := by
  cases c with
  | query => rfl
  | power on =>
    cases on with
    | true => rfl
    | false => rfl
  | group bytes => rfl

/-- The simulator executes a command as the panel does. -/
theorem Shows.handle (h : Shows a p) {frame : HaierFrame} {c : Command} {useCrc : Bool}
    (hframe : Presents frame c.message useCrc) :
    SameAnswer (a.handle frame).2 (c.status p.acStatus, none) ∧
      Shows (a.handle frame).1 { p with
        acStatus := c.apply p.acStatus
        answers := p.answers ++ [(c.status p.acStatus, none)] } := by
  have hparse := parse_of_presents hframe
  have htype : frame.frameType = typeControl := hframe.frameType.trans (frameType_message c)
  have hlookup : handlers.lookup frame.frameType = some statusRequestHandler := by
    rw [htype]
    rfl
  have hyields := yields_statusRequestHandler hparse { acStatus := a.acStatus }
  rw [← htype] at hyields
  have hcontrol := h.control frame.dataByte frame.dataSize.toNat
  rw [Panel.control, hparse, ← htype] at hcontrol
  rw [handle_eq hlookup hyields]
  exact ⟨.status c h.agree, hcontrol⟩

theorem answers_go_statuses (now : ℤ) (file : Option ControlFile) (between : Nat → List Round) :
    ∀ (items : List OutgoingQueueItem) (commands : List Command) (k : Nat) (a : Application)
      (p : Panel), Shows a p → items.map (·.message) = commands.map Command.message →
      ∃ told, List.Forall₂ SameAnswer told (p.statuses between k commands) ∧
        Responder.answers.go (Application.responder stod now file between) (k, a) items =
          List.zipWith (fun item x => (item.id, answerFrame item x)) items told
  | [], [], _, _, _, _, _ => ⟨[], .nil, rfl⟩
  | [], _ :: _, _, _, _, _, hmap => absurd hmap.symm (List.cons_ne_nil _ _)
  | _ :: _, [], _, _, _, _, hmap => absurd hmap (List.cons_ne_nil _ _)
  | item :: items, c :: commands, k, a, p, h, hmap => by
    obtain ⟨hmessage, hmap⟩ := List.cons.inj hmap
    have hmessage : item.message = c.message := hmessage
    have hlength : item.message.payload.length ≤ 233 := hmessage ▸ length_message_le c
    have hframe : Presents item.frame c.message item.useCrc :=
      hmessage ▸ OutgoingQueueItem.presents hlength
    have hrounds := h.run stod ((between k).map Round.step)
    obtain ⟨hanswer, hafter⟩ := hrounds.handle hframe
    obtain ⟨told, htold, hgo⟩ :=
      answers_go_statuses now file between items commands (k + 1) _ _ hafter hmap
    refine ⟨_ :: told, .cons hanswer htold, ?_⟩
    rw [List.zipWith_cons_cons, ← hgo, answerFrame, ← hframe.useCrc]
    rfl

/-! ## Conversations -/

theorem asks_registrations : ∀ c ∈ registrations, c.Asks fun _ _ => False := by
  simp only [registrations, List.forall_mem_cons]
  exact ⟨trivial, trivial, trivial, trivial, trivial, fun _ h => absurd h List.not_mem_nil⟩

/-- The beginning, when the client has been set up. -/
def begin (env : Side → Surroundings) (cells : Side → Nat → UInt8) (bufferSize : Side → Nat)
    (client : List ApiCall) : Network :=
  Conversation.start env cells bufferSize (Conversation.twoPrograms client registrations)

/-- In every conversation with the simulator in which the client asks for commands and is never
late, whatever the rounds between the messages: its answer handlers are given the statuses of a
panel that executes the commands in their order, up to what the device owns. -/
theorem conversation_statuses (stod : String → Option ℚ) (env : Side → Surroundings)
    (cells : Side → Nat → UInt8) (bufferSize : Side → Nat) (client : List ApiCall) (now : ℤ)
    (file : Option ControlFile) (between : Nat → List Round) (steps : List Conversation.Step)
    (commands : List Command) (hclient : ∀ c ∈ client, c.Asks fun _ _ => False)
    (hbuffer : 76 ≤ Conversation.capacity (begin env cells bufferSize client) .left)
    (hproper : Conversation.AllProper env (Application.responder stod now file between)
      (begin env cells bufferSize client) (begin env cells bufferSize client) steps) :
    let n := Conversation.run env (Application.responder stod now file between)
      (begin env cells bufferSize client) steps
    (requestsOf (n .left).trace).map (·.message) = commands.map Command.message →
      ∃ told, List.Forall₂ SameAnswer told ((Panel.start file).statuses between 0 commands) ∧
        answersOf (n .left).trace <+:
          List.zipWith (fun item x => (item.id, answerFrame item x)) (requestsOf (n .left).trace)
            told := by
  intro n hcommands
  obtain ⟨done, hphase⟩ := Conversation.conversation_phase _ env cells bufferSize _ steps
    (Conversation.asks_twoPrograms hclient asks_registrations)
    (responder_fits stod now file between hbuffer) hproper
  obtain ⟨told, htold, hgo⟩ := answers_go_statuses now file between
    (requestsOf (n .left).trace) commands 0 _ _ (shows_start stod now file) hcommands
  refine ⟨told, htold, ?_⟩
  rw [← hgo]
  exact hphase.answered_prefix

/-- The simulator with buffers of the default size, and a round before every message. -/
def simulator : Responder (Nat × Application) :=
  Application.responder (fun _ => none) 0 none fun _ => [⟨0, 0, none, false, false⟩]

def begun : Network := begin Conversation.still (fun _ _ => 0) (fun _ => 251) []

/-- The power is switched on. -/
def switchOn : List Conversation.Step :=
  [.call (.sendMessage (Command.power true).message true 0 0), .loop fun _ => [],
    .deliver .right 100, .serve, .deliver .left 100, .loop fun _ => []]

theorem proper_switchOn :
    Conversation.AllProper Conversation.still simulator begun begun switchOn := by
  have hnone : ∀ invocation : Invocation, ∀ c ∈ ([] : List ApiCall),
      c.Asks (Conversation.Accepted begun) := fun _ _ h => absurd h List.not_mem_nil
  have haccepted : Conversation.Accepted begun (Command.power true).message true := by
    obtain ⟨p, hp, hle⟩ := HaierMessage.packet_of_le (length_message_le (.power true)) true
    have hcapacity : 28 ≤ (begun .right).handler.transport.buffer.capacity := by decide +kernel
    exact ⟨p, hp, hle.trans (by decide), hle.trans hcapacity, by decide +kernel⟩
  exact ⟨haccepted, ⟨hnone, fun _ => by decide +kernel⟩, trivial, trivial, trivial,
    ⟨hnone, fun _ => by decide +kernel⟩, trivial⟩

theorem conversation_statuses_power :
    let n := Conversation.run Conversation.still simulator begun switchOn
    ∃ told, List.Forall₂ SameAnswer told ((Panel.start none).statuses
        (fun _ => [⟨0, 0, none, false, false⟩]) 0 [.power true]) ∧
      answersOf (n .left).trace <+:
        List.zipWith (fun item x => (item.id, answerFrame item x)) (requestsOf (n .left).trace)
          told :=
  conversation_statuses (fun _ => none) Conversation.still (fun _ _ => 0) (fun _ => 251) [] 0 none
    (fun _ => [⟨0, 0, none, false, false⟩]) switchOn [.power true]
    (fun _ h => absurd h List.not_mem_nil) (by decide +kernel) proper_switchOn (by decide +kernel)

end HaierProtocol.Smartair2
