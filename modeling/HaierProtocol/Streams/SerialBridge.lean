import HaierProtocol.Streams.SerialStream

/-!
# The bridge between a serial port and a socket

The loop of `tools/remote_serial_bridge/main.cpp`.  In each round it looks at the keyboard, passes
on what the port has and then what the socket has.  A call that fails ends the program.  How much of
a write the socket has taken is not looked at.
-/

namespace HaierProtocol

/-- `SOCKET_BUFFER_SIZE`, and the size of `serial_buffer`. -/
def socketBufferSize : Nat := 2048

def escapeKey : Nat := 27

/-- What a round meets with. -/
structure BridgeRound where
  /-- The key that was pressed, if any. -/
  keyboard : Option Nat := none
  port : ReadResult serialBufferSize
  /-- How many bytes `write_socket` takes of those it is given, `none` if it fails. -/
  taken : Option Nat
  /-- What `read_socket` gives. -/
  socket : ReadResult socketBufferSize

/-- The program, with a record of what has passed through it. -/
structure SerialBridge where
  serial : { s : SerialStream // s.Closed }
  appExiting : Bool
  /-- The result of `main`, if it has returned. -/
  result : Option Nat
  fromPort : List UInt8
  /-- What was given to `write_socket`, call by call, and how many bytes were taken. -/
  writes : List (List UInt8 × Option Nat)
  fromSocket : List UInt8
  /-- What was given to `write_array`. -/
  toPort : List UInt8

namespace SerialBridge

def start (cells : Nat → UInt8) : SerialBridge where
  serial := ⟨.ofCells cells true, SerialStream.closed_ofCells cells true⟩
  appExiting := false
  result := none
  fromPort := []
  writes := []
  fromSocket := []
  toPort := []

/-- `available`, then `read_array` of so many bytes. -/
def readPort (b : SerialBridge) (port : ReadResult serialBufferSize) : SerialBridge × List UInt8 :=
  let available := b.serial.1.available port
  have hclosed := (b.serial.1.available_spec b.serial.2 port).2.2.1
  let read := available.1.readArray available.2.1
  ({ b with
      serial := ⟨read.1, (available.1.readArray_spec hclosed available.2.1).2.2.1⟩
      fromPort := b.fromPort ++ available.2.2 }, read.2)

/-- The socket's turn. -/
def readSocket (b : SerialBridge) (socket : ReadResult socketBufferSize) : SerialBridge :=
  match socket with
  | none => { b with result := some 1 }
  | some ⟨bytes, _⟩ =>
    if bytes.length > 0 then
      { b with
        fromSocket := b.fromSocket ++ bytes
        toPort := b.toPort ++ b.serial.1.writeArray bytes }
    else b

def passOn (b : SerialBridge) (round : BridgeRound) : SerialBridge :=
  let (b, bytes) := b.readPort round.port
  if bytes.length > 0 then
    let b := { b with writes := b.writes ++ [(bytes, round.taken)] }
    if round.taken.isNone then { b with result := some 1 } else b.readSocket round.socket
  else b.readSocket round.socket

/-- One round, if the program still runs. -/
def step (b : SerialBridge) (round : BridgeRound) : SerialBridge :=
  if b.appExiting || b.result.isSome then b
  else match round.keyboard with
    | some key => if key = escapeKey then { b with appExiting := true } else b
    | none => b.passOn round

def run (b : SerialBridge) (rounds : List BridgeRound) : SerialBridge := rounds.foldl step b

/-- What was given to the socket, and what the socket has taken of it. -/
def offered (b : SerialBridge) : List UInt8 := b.writes.flatMap Prod.fst

def accepted (b : SerialBridge) : List UInt8 := b.writes.flatMap fun w => w.1.take (w.2.getD 0)

/-! ## Nothing is kept back -/

/-- What has come from the port has been given to the socket, and the other way round. -/
structure Transparent (b : SerialBridge) : Prop where
  isValid : b.serial.1.isValid = true
  stored : b.serial.1.buffer.contents = []
  offered : b.offered = b.fromPort
  fits : ∀ w ∈ b.writes, w.1 ≠ [] ∧ w.1.length ≤ serialBufferSize
  returned : b.toPort = b.fromSocket

variable {b : SerialBridge}

theorem transparent_start (cells : Nat → UInt8) : Transparent (start cells) :=
  ⟨rfl, rfl, rfl, fun _ h => absurd h List.not_mem_nil, rfl⟩

theorem Transparent.readSocket (h : Transparent b) (socket : ReadResult socketBufferSize) :
    Transparent (b.readSocket socket) := by
  obtain ⟨hvalid, hstored, hoffered, hfits, hreturned⟩ := h
  cases socket with
  | none => exact ⟨hvalid, hstored, hoffered, hfits, hreturned⟩
  | some bytes =>
    rw [SerialBridge.readSocket]
    split
    · refine ⟨hvalid, hstored, hoffered, hfits, ?_⟩
      show b.toPort ++ b.serial.1.writeArray bytes.1 = b.fromSocket ++ bytes.1
      rw [hreturned, SerialStream.writeArray, hvalid, if_neg (by decide)]
    · exact ⟨hvalid, hstored, hoffered, hfits, hreturned⟩

/-- All that the port has given is read at once. -/
theorem readPort_spec (h : Transparent b) (port : ReadResult serialBufferSize) :
    let bytes := (b.readPort port).2
    (b.readPort port).1.fromPort = b.fromPort ++ bytes ∧
      (b.readPort port).1.serial.1.buffer.contents = [] ∧
      (b.readPort port).1.serial.1.isValid = true ∧ bytes.length ≤ serialBufferSize := by
  intro bytes
  obtain ⟨hcontents, hsize, hclosed, hvalid⟩ := b.serial.1.available_spec b.serial.2 port
  obtain ⟨htaken, hleft, _, hvalid'⟩ := SerialStream.readArray_spec _ hclosed
    (b.serial.1.available port).2.1
  rw [h.stored, List.nil_append] at hcontents
  have hlen : (b.serial.1.available port).2.2.length = (b.serial.1.available port).2.1 := by
    rw [hsize, ← Members.length_contents, hcontents]
  have hbytes : bytes = (b.serial.1.available port).2.2 := by
    refine htaken.trans ?_
    rw [hcontents, ← hlen, List.take_length]
  refine ⟨?_, hleft.trans ?_, (hvalid'.trans hvalid).trans h.isValid, ?_⟩
  · rw [hbytes]
    rfl
  · rw [hcontents, ← hlen, List.drop_length]
  · have hle := (b.serial.1.available port).1.buffer.getSize_le
    rw [hbytes, hlen, hsize]
    exact (b.serial.1.available port).1.capacity_eq ▸ hle

theorem Transparent.passOn (h : Transparent b) (round : BridgeRound) :
    Transparent (b.passOn round) := by
  obtain ⟨hfrom, hstored, hvalid, hlen⟩ := readPort_spec h round.port
  have hrest : ∀ writes : List (List UInt8 × Option Nat),
      writes.flatMap Prod.fst = b.offered ++ (b.readPort round.port).2 →
      (∀ w ∈ writes, w.1 ≠ [] ∧ w.1.length ≤ serialBufferSize) →
      Transparent { (b.readPort round.port).1 with writes } := by
    intro writes hwrites hfits
    refine ⟨hvalid, hstored, ?_, hfits, h.returned⟩
    show writes.flatMap Prod.fst = (b.readPort round.port).1.fromPort
    rw [hwrites, hfrom, h.offered]
  rw [SerialBridge.passOn]
  by_cases hsome : (b.readPort round.port).2.length > 0
  · have hwritten := hrest (b.writes ++ [((b.readPort round.port).2, round.taken)])
      (by rw [List.flatMap_append, List.flatMap_singleton]; rfl) (fun w hw => by
        rcases List.mem_append.mp hw with hw | hw
        · exact h.fits w hw
        · rw [List.mem_singleton.mp hw]
          exact ⟨List.ne_nil_of_length_pos hsome, hlen⟩)
    simp only [hsome, if_true]
    split
    · exact ⟨hwritten.isValid, hwritten.stored, hwritten.offered, hwritten.fits, hwritten.returned⟩
    · exact hwritten.readSocket round.socket
  · have hnil : (b.readPort round.port).2 = [] := List.length_eq_zero_iff.mp (by omega)
    simp only [hsome, if_false]
    exact (hrest b.writes (by rw [hnil, List.append_nil]; rfl) h.fits).readSocket round.socket

theorem Transparent.step (h : Transparent b) (round : BridgeRound) :
    Transparent (b.step round) := by
  rw [SerialBridge.step]
  split
  · exact h
  · cases round.keyboard with
    | none => exact h.passOn round
    | some key =>
      dsimp only
      split
      · exact ⟨h.isValid, h.stored, h.offered, h.fits, h.returned⟩
      · exact h

/-! ## What the socket takes -/

/-- All of every write has been taken if and only if nothing is missing in the end. -/
theorem flatMap_take_eq_iff (writes : List (List UInt8 × Option Nat)) :
    writes.flatMap (fun w => w.1.take (w.2.getD 0)) = writes.flatMap Prod.fst ↔
      ∀ w ∈ writes, w.1.length ≤ w.2.getD 0 := by
  have hle : ∀ writes : List (List UInt8 × Option Nat),
      (writes.flatMap fun w => w.1.take (w.2.getD 0)).length ≤
        (writes.flatMap Prod.fst).length := by
    intro writes
    induction writes with
    | nil => exact Nat.le_refl 0
    | cons w rest ih =>
      rw [List.flatMap_cons, List.flatMap_cons, List.length_append, List.length_append]
      have := List.length_take_le (w.2.getD 0) w.1
      have := List.length_take_le' (w.2.getD 0) w.1
      omega
  induction writes with
  | nil => exact iff_of_true rfl fun _ h => absurd h List.not_mem_nil
  | cons w rest ih =>
    rw [List.flatMap_cons, List.flatMap_cons, List.forall_mem_cons]
    constructor
    · intro heq
      have hlen := congrArg List.length heq
      have := hle rest
      rw [List.length_append, List.length_append, List.length_take] at hlen
      have hfull : w.1.length ≤ w.2.getD 0 := by omega
      rw [List.take_of_length_le hfull] at heq
      exact ⟨hfull, ih.mp (List.append_cancel_left heq)⟩
    · rintro ⟨hfull, hrest⟩
      rw [List.take_of_length_le hfull, ih.mpr hrest]

/-- Whatever the keyboard, the port and the socket do: all bytes from the port are offered to the
socket, and all bytes from the socket are written to the port, in order and none twice, and nothing
is kept back.  The socket gets all of them exactly if it takes every write whole. -/
theorem run_transparent (cells : Nat → UInt8) (rounds : List BridgeRound) :
    let b := (start cells).run rounds
    b.offered = b.fromPort ∧ b.toPort = b.fromSocket ∧ b.serial.1.buffer.contents = [] ∧
      (∀ w ∈ b.writes, w.1 ≠ [] ∧ w.1.length ≤ serialBufferSize) ∧
      (b.accepted = b.fromPort ↔ ∀ w ∈ b.writes, w.1.length ≤ w.2.getD 0) := by
  intro b
  have h : Transparent b := by
    have hrun : ∀ (rounds : List BridgeRound) (b : SerialBridge), Transparent b →
        Transparent (b.run rounds) := by
      intro rounds
      induction rounds with
      | nil => exact fun _ h => h
      | cons round rest ih => exact fun b h => ih _ (h.step round)
    exact hrun rounds _ (transparent_start cells)
  refine ⟨h.offered, h.returned, h.stored, h.fits, ?_⟩
  rw [← h.offered]
  exact flatMap_take_eq_iff b.writes

end SerialBridge
end HaierProtocol
