import HaierProtocol.Lib.Delimiting
import HaierProtocol.Transport.Decoder
import HaierProtocol.Transport.Soundness

/-!
# Segmentation

On a line that carries nothing but packets, whatever decodes to a frame is one of these packets,
from its first byte to its last (`decodes_wires`).  This does not depend on what the receiver
keeps, drops or misses.
-/

namespace HaierProtocol

open Stuffing (stuff delimit Plain)

/-- The bytes between the separators and the next packet. -/
def Packet.content (p : Packet) : List UInt8 := p.logical ++ p.trailer

theorem Packet.content_plain (p : Packet) : Plain 0xFF p.content :=
  ⟨p.lengthByte, p.header.tail ++ p.body,
    p.logical_append_trailer.trans (by rw [p.header_eq, List.cons_append]; rfl), p.lengthByte_ne⟩

theorem wires_eq (packets : List Packet) :
    wires packets = (packets.map Packet.content).flatMap (delimit 0xFF 0x55) := by
  rw [List.flatMap_map]
  rfl

/-- Two separators in a row stand only where a packet begins. -/
theorem begins_of_separators {packets : List Packet} {start : Nat}
    (hfirst : (wires packets)[start]? = some 0xFF)
    (hsecond : (wires packets)[start + 1]? = some 0xFF) :
    ∃ before p after, packets = before ++ p :: after ∧ start = (wires before).length := by
  rw [wires_eq] at hfirst hsecond
  have hplain : ∀ w ∈ packets.map Packet.content, Plain 0xFF w := by
    intro w hw
    obtain ⟨p, _, rfl⟩ := List.mem_map.mp hw
    exact p.content_plain
  obtain ⟨contents, _, _, hmap, hstart⟩ :=
    Stuffing.begins_of_marks (by decide) hplain hfirst hsecond
  obtain ⟨before, rest, rfl, rfl, hrest⟩ := List.map_eq_append_iff.mp hmap
  obtain ⟨p, after, rfl, _, _⟩ := List.map_eq_cons_iff.mp hrest
  exact ⟨before, p, after, rfl, by rw [wires_eq]; exact hstart⟩

/-- What begins like a packet and decodes to a frame is the packet. -/
theorem decodes_wire {stream rest : List UInt8} {start stop : Nat} {frame : HaierFrame} {p : Packet}
    (h : Decodes stream start stop frame) (hstream : stream.drop start <+: p.wire ++ rest) :
    stop = start + p.wire.length ∧ frame = p.frame := by
  obtain ⟨header, body, partFrame, hheader, _, _, hpre, hstop, hparse, hbody, hcomplete⟩ := h
  have hwire : p.wire = [0xFF, 0xFF] ++ stuff 0xFF 0x55 (p.header ++ p.body) := by
    rw [Packet.wire, p.logical_append_trailer]
  have hpre' := hpre.trans hstream
  rw [hwire, List.append_assoc, List.prefix_append_right_inj] at hpre'
  have hne : (0x55 : UInt8) ≠ 0xFF := by decide
  have hwhole : stuff 0xFF 0x55 (p.header ++ p.body) <+:
      stuff 0xFF 0x55 (p.header ++ p.body) ++ rest := List.prefix_append _ _
  have hbegins : ∀ x y : List UInt8, stuff 0xFF 0x55 x <+: stuff 0xFF 0x55 (x ++ y) := by
    intro x y
    rw [Stuffing.stuff_append]
    exact List.prefix_append _ _
  -- The header tells how long the body is.
  have hhead : header = p.header := Stuffing.eq_of_stuff_prefix hne
    (hheader.trans p.length_header.symm) ((hbegins _ _).trans hpre') ((hbegins _ _).trans hwhole)
  rw [hhead, p.parse_header] at hparse
  obtain rfl : p.headerFrame = partFrame := congrArg Prod.fst hparse
  rw [p.bodySize_headerFrame] at hbody
  have hword : header ++ body = p.header ++ p.body := by
    refine Stuffing.eq_of_stuff_prefix hne ?_ hpre' hwhole
    rw [List.length_append, List.length_append, hhead, hbody]
  have hbody' : body = p.body := by
    rw [hhead] at hword
    exact List.append_cancel_left hword
  rw [hword, ← hwire] at hstop
  rw [hbody', p.parse_body] at hcomplete
  exact ⟨hstop, (congrArg Prod.fst hcomplete).symm⟩

/-- Whatever decodes on a line of packets is one of them. -/
theorem decodes_wires {packets : List Packet} {stream : List UInt8} {start stop : Nat}
    {frame : HaierFrame} (h : Decodes stream start stop frame)
    (hstream : stream <+: wires packets) :
    ∃ before p after, packets = before ++ p :: after ∧ start = (wires before).length ∧
      stop = (wires before).length + p.wire.length ∧ frame = p.frame := by
  have hget : ∀ i, i < 2 → (wires packets)[start + i]? = some 0xFF := by
    obtain ⟨header, body, _, _, _, _, hpre, _⟩ := h
    obtain ⟨more, hmore⟩ := hpre.trans (hstream.drop start)
    intro i hi
    rw [← List.getElem?_drop, ← hmore]
    match i, hi with
    | 0, _ => rfl
    | 1, _ => rfl
  obtain ⟨before, p, after, rfl, rfl⟩ :=
    begins_of_separators (hget 0 (by decide)) (hget 1 (by decide))
  have hdrop := hstream.drop (wires before).length
  rw [wires_append, wires_cons, List.drop_left] at hdrop
  obtain ⟨hstop, hframe⟩ := decodes_wire h hdrop
  exact ⟨before, p, after, rfl, rfl, hstop, hframe⟩

end HaierProtocol
