import HaierProtocol.Transport.WireFormat

/-!
# Messages

`HaierMessage` of `protocol/haier_message.h`.  A message is a frame type, an optional
subcommand and data; its payload is the subcommand, if there is one, followed by the data.
The enumeration `FrameType` is a byte that any value may be cast to, so it is one here.
-/

namespace HaierProtocol

abbrev FrameType := UInt8

def noSubcommand : UInt16 := 0x0000

structure HaierMessage where
  frameType : FrameType
  subcommand : UInt16
  data : List UInt8
deriving DecidableEq, Repr

namespace HaierMessage

def getBufferSize (m : HaierMessage) : Nat :=
  m.data.length + if m.subcommand = noSubcommand then 0 else 2

/-- The contents of `buffer` after the call and the number of bytes it reports. -/
def fillBuffer (m : HaierMessage) (buffer : List UInt8) (limit : Nat) : List UInt8 × Nat :=
  if m.getBufferSize > limit then (buffer, 0)
  else
    let (buffer, pos) :=
      if m.subcommand ≠ noSubcommand then
        ((buffer.set 0 (m.subcommand >>> 8).toUInt8).set 1 (m.subcommand &&& 0xFF).toUInt8, 2)
      else (buffer, 0)
    let buffer :=
      if m.data.length > 0 then buffer.take pos ++ m.data ++ buffer.drop (pos + m.data.length)
      else buffer
    (buffer, pos + m.data.length)

/-- What a message puts into its frame. -/
def payload (m : HaierMessage) : List UInt8 :=
  (if m.subcommand = noSubcommand then []
    else [(m.subcommand >>> 8).toUInt8, (m.subcommand &&& 0xFF).toUInt8]) ++ m.data

theorem getBufferSize_eq (m : HaierMessage) : m.getBufferSize = m.payload.length := by
  rw [getBufferSize, payload, List.length_append, Nat.add_comm]
  split <;> rfl

/-- A buffer of the right size receives the payload. -/
theorem fillBuffer_eq (m : HaierMessage) {buffer : List UInt8}
    (hlen : buffer.length = m.getBufferSize) :
    m.fillBuffer buffer m.getBufferSize = (m.payload, m.payload.length) := by
  have hsize := m.getBufferSize_eq
  rw [fillBuffer, if_neg (Nat.lt_irrefl _)]
  rw [getBufferSize] at hlen
  by_cases hsub : m.subcommand = noSubcommand
  · rw [if_pos hsub, Nat.add_zero] at hlen
    have hpayload : m.payload = m.data := by rw [payload, if_pos hsub, List.nil_append]
    rw [if_neg (not_not.mpr hsub), hpayload]
    cases hdata : m.data with
    | nil =>
      rw [hdata] at hlen
      rw [List.length_eq_zero_iff.mp hlen]
      rfl
    | cons b rest =>
      have hdrop : buffer.drop (0 + (b :: rest).length) = [] := by
        rw [← hdata, Nat.zero_add, ← hlen, List.drop_length]
      simp only [List.length_cons, Nat.succ_pos, gt_iff_lt, if_true, List.take_zero,
        List.nil_append, Nat.zero_add]
      rw [List.length_cons, Nat.zero_add] at hdrop
      rw [hdrop, List.append_nil]
  · rw [if_neg hsub] at hlen
    rw [if_pos hsub, payload, if_neg hsub]
    match buffer, hlen with
    | a :: b :: rest, hlen =>
      have hrest : rest.length = m.data.length := by simpa using hlen
      by_cases hdata : m.data.length > 0
      · have hdrop : ∀ x y : UInt8, (x :: y :: rest).drop (2 + m.data.length) = [] := by
          intro x y
          rw [List.drop_eq_nil_iff, List.length_cons, List.length_cons, hrest]
          omega
        simp only [hdata, if_true, List.set_cons_zero, List.set_cons_succ]
        rw [hdrop, List.append_nil, List.length_append]
        rfl
      · have hnil : m.data = [] := List.length_eq_zero_iff.mp (by omega)
        rw [hnil] at hrest
        simp [hnil, List.length_eq_zero_iff.mp hrest]

/-- The packet a message becomes, if its payload fits a frame. -/
def packet (m : HaierMessage) (useCrc : Bool) : Option Packet :=
  if h : m.payload.length ≤ 233 then some ⟨m.frameType, m.payload, useCrc, h⟩ else none

end HaierMessage
end HaierProtocol
