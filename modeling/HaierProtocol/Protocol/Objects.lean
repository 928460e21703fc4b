import HaierProtocol.Lib.Ownership
import HaierProtocol.Protocol.HaierMessage
import HaierProtocol.Transport.HaierFrame

/-!
# Messages and frames as objects

The special members of `HaierMessage` and `HaierFrame`, and the members of a frame that change its
payload, on objects that hold a pointer to a block of the heap.  What does not look at the pointer
is taken from the values of the same name.
-/

namespace HaierProtocol

open Ownership

abbrev PayloadHeap := Heap UInt8

/-! ## Messages -/

structure MessageObject where
  frameType : FrameType
  subcommand : UInt16
  dataSize : Nat
  data : Option Nat

namespace MessageObject

/-- The constructor with data, of which the others are cases, and the heap after it. -/
def construct (heap : PayloadHeap) (frameType : FrameType) (subcommand : UInt16) (dataSize : Nat)
    (data : Option (Vector UInt8 dataSize)) : MessageObject × PayloadHeap :=
  match data with
  | some bytes =>
    if dataSize ≠ 0 then (⟨frameType, subcommand, dataSize, some heap.next⟩,
      heap.alloc bytes.toList)
    else (⟨frameType, subcommand, 0, none⟩, heap)
  | none => (⟨frameType, subcommand, 0, none⟩, heap)

/-- What the copy constructor and the copy assignment make of the source. -/
def copy (heap : PayloadHeap) (source : MessageObject) : Option (MessageObject × PayloadHeap) := do
  let bytes ← heap.read source.data source.dataSize
  return ({ source with data := some heap.next }, heap.alloc bytes)

/-- What is left of the source of a move. -/
def release (source : MessageObject) : MessageObject := { source with data := none }

def getBufferSize (m : MessageObject) : Nat :=
  m.dataSize + if m.subcommand = noSubcommand then 0 else 2

def value (m : MessageObject) (bytes : List UInt8) : HaierMessage :=
  ⟨m.frameType, m.subcommand, bytes⟩

def fillBuffer (heap : PayloadHeap) (m : MessageObject) (buffer : List UInt8) (limit : Nat) :
    Option (List UInt8 × Nat) :=
  if m.getBufferSize > limit then some (buffer, 0)
  else (heap.read m.data m.dataSize).map fun bytes => (m.value bytes).fillBuffer buffer limit

end MessageObject

/-! ## Frames -/

structure FrameObject where
  frameType : UInt8
  useCrc : Bool
  dataSize : UInt8
  checksum : UInt8
  crc : UInt16
  data : Option Nat
  status : FrameStatus
  additionalBytes : UInt8

namespace FrameObject

/-- The object with the fields of a frame. -/
def ofFrame (f : HaierFrame) (data : Option Nat) : FrameObject where
  frameType := f.frameType
  useCrc := f.useCrc
  dataSize := f.dataSize
  checksum := f.checksum
  crc := f.crc
  data := data
  status := f.status
  additionalBytes := f.additionalBytes

def value (f : FrameObject) (bytes : Option (List UInt8)) : HaierFrame where
  frameType := f.frameType
  useCrc := f.useCrc
  dataSize := f.dataSize
  checksum := f.checksum
  crc := f.crc
  data := bytes
  status := f.status
  additionalBytes := f.additionalBytes

/-- The constructor for `dataSize` bytes of data. -/
def construct (heap : PayloadHeap) (frameType dataSize : UInt8)
    (data : Vector UInt8 dataSize.toNat) (useCrc : Bool) : FrameObject × PayloadHeap :=
  let f := HaierFrame.construct frameType data.toList dataSize useCrc
  match f.data with
  | some bytes => (ofFrame f (some heap.next), heap.alloc bytes)
  | none => (ofFrame f none, heap)

/-- What is left of the source of a move. -/
def release (source : FrameObject) : FrameObject := { source with data := none }

def empty : FrameObject := ofFrame .empty none

/-- The object after an attempt that has led to `parsed`, and the heap: a body that is accepted gets
a block of its own. -/
def settle (heap : PayloadHeap) (data : Option Nat) (parsed : HaierFrame) (err : FrameError) :
    FrameObject × PayloadHeap :=
  if err = .completeFrame then
    match parsed.data with
    | some bytes => (ofFrame parsed (some heap.next), heap.alloc bytes)
    | none => (ofFrame parsed none, heap)
  else (ofFrame parsed data, heap)

def parseBuffer (heap : PayloadHeap) (f : FrameObject) (buffer : List UInt8) :
    FrameObject × PayloadHeap :=
  let (parsed, err, _) := (f.value none).parseBuffer buffer
  settle heap f.data parsed err

def getBufferSize (f : FrameObject) : Nat := (f.value none).getBufferSize

def fillBuffer (heap : PayloadHeap) (f : FrameObject) (buffer : List UInt8) (limit : Nat) :
    Option (List UInt8 × Nat) :=
  if f.getBufferSize > limit then some (buffer, 0)
  else (heap.read f.data f.dataSize.toNat).map fun bytes =>
    (f.value (some bytes)).fillBuffer buffer limit

end FrameObject

/-! ## Objects -/

inductive PayloadObject where
  | message (m : MessageObject)
  | frame (f : FrameObject)

namespace PayloadObject

def dataSize : PayloadObject → Nat
  | message m => m.dataSize
  | frame f => f.dataSize.toNat

def data : PayloadObject → Option Nat
  | message m => m.data
  | frame f => f.data

/-- Messages always are. -/
def isComplete : PayloadObject → Bool
  | message _ => true
  | frame f => f.status == .frameComplete

def getBufferSize : PayloadObject → Nat
  | message m => m.getBufferSize
  | frame f => f.getBufferSize

def fillBuffer (heap : PayloadHeap) (o : PayloadObject) (buffer : List UInt8) (limit : Nat) :
    Option (List UInt8 × Nat) :=
  match o with
  | message m => m.fillBuffer heap buffer limit
  | frame f => f.fillBuffer heap buffer limit

end PayloadObject

/-- The live objects and the heap. -/
structure Payloads where
  objects : Nat → Option PayloadObject
  heap : PayloadHeap

/-- The calls.  The first argument is the object that is made, changed or destroyed. -/
inductive ObjectCall where
  | newMessage (i : Nat) (frameType : FrameType) (subcommand : UInt16) (dataSize : Nat)
      (data : Option (Vector UInt8 dataSize))
  | copyMessage (i source : Nat)
  | moveMessage (i source : Nat)
  | assignMessage (i source : Nat)
  | moveAssignMessage (i source : Nat)
  | newFrame (i : Nat) (frameType dataSize : UInt8) (data : Vector UInt8 dataSize.toNat)
      (useCrc : Bool)
  | emptyFrame (i : Nat)
  | moveFrame (i source : Nat)
  | moveAssignFrame (i source : Nat)
  | parseBuffer (i : Nat) (buffer : List UInt8)
  | reset (i : Nat)
  | destroy (i : Nat)

namespace Payloads

def initial : Payloads := ⟨fun _ => none, .empty⟩

def put (s : Payloads) (i : Nat) (o : PayloadObject) (heap : PayloadHeap) : Payloads :=
  ⟨Function.update s.objects i (some o), heap⟩

/-- The object `i` becomes what the source was, which is left as `o`. -/
def transfer (s : Payloads) (i source : Nat) (target o : PayloadObject) (heap : PayloadHeap) :
    Payloads :=
  (s.put i target heap).put source o heap

/-- One call; `none` where it reads through a null pointer or frees what is no block.  A call for
objects that are not there, or of the other class, is not made. -/
def step (s : Payloads) : ObjectCall → Option Payloads
  | .newMessage i frameType subcommand dataSize data =>
    match s.objects i with
    | none =>
      let (m, heap) := MessageObject.construct s.heap frameType subcommand dataSize data
      some (s.put i (.message m) heap)
    | some _ => some s
  | .copyMessage i source =>
    match s.objects i, s.objects source with
    | none, some (.message m) => (m.copy s.heap).map fun (m, heap) => s.put i (.message m) heap
    | _, _ => some s
  | .moveMessage i source =>
    match s.objects i, s.objects source with
    | none, some (.message m) =>
      some (s.transfer i source (.message m) (.message m.release) s.heap)
    | _, _ => some s
  | .assignMessage i source =>
    if i = source then some s
    else match s.objects i, s.objects source with
    | some (.message _), some (.message m) =>
      (m.copy s.heap).map fun (m, heap) => s.put i (.message m) heap
    | _, _ => some s
  | .moveAssignMessage i source =>
    if i = source then some s
    else match s.objects i, s.objects source with
    | some (.message _), some (.message m) =>
      some (s.transfer i source (.message m) (.message m.release) s.heap)
    | _, _ => some s
  | .newFrame i frameType dataSize data useCrc =>
    match s.objects i with
    | none =>
      let (f, heap) := FrameObject.construct s.heap frameType dataSize data useCrc
      some (s.put i (.frame f) heap)
    | some _ => some s
  | .emptyFrame i =>
    match s.objects i with
    | none => some (s.put i (.frame .empty) s.heap)
    | some _ => some s
  | .moveFrame i source =>
    match s.objects i, s.objects source with
    | none, some (.frame f) => some (s.transfer i source (.frame f) (.frame f.release) s.heap)
    | _, _ => some s
  | .moveAssignFrame i source =>
    if i = source then some s
    else match s.objects i, s.objects source with
    | some (.frame t), some (.frame f) =>
      (s.heap.free t.data).map fun heap =>
        s.transfer i source (.frame f) (.frame f.release) heap
    | _, _ => some s
  | .parseBuffer i buffer =>
    match s.objects i with
    | some (.frame f) =>
      let (f, heap) := f.parseBuffer s.heap buffer
      some (s.put i (.frame f) heap)
    | _ => some s
  | .reset i =>
    match s.objects i with
    | some (.frame f) => (s.heap.free f.data).map fun heap => s.put i (.frame .empty) heap
    | _ => some s
  | .destroy i =>
    match s.objects i with
    | some o =>
      (s.heap.free o.data).map fun heap => ⟨Function.update s.objects i none, heap⟩
    | none => some s

end Payloads

end HaierProtocol
