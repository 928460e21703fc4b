import HaierProtocol.Lib.BitField
import Mathlib.Algebra.GroupWithZero.Nat

/-!
# Records of bit fields

A record is stored field by field.  Fields that are apart do not disturb each other: every one can
be read back (`bitAt_putAll_of_mem`), and bits that belong to none are as before
(`bitAt_putAll_of_not`).  Arrays agree outside some fields if only bits of these tell them apart.
-/

deriving instance DecidableEq for BitField

namespace BitField

variable {n : Nat}

theorem byte_fits : 0 + 8 ≤ 8 := by decide

def byteField (i : Fin n) : BitField n := ⟨i, 0, 8, byte_fits⟩

def byteBits : Nat := 8

instance : NeZero byteBits := ⟨Nat.succ_ne_zero _⟩

def bitField (i : Fin n) (j : Fin byteBits) : BitField n := ⟨i, j, 1, j.isLt⟩

/-- No bit is in both. -/
def Apart (f g : BitField n) : Prop :=
  f.byte ≠ g.byte ∨ f.offset + f.width ≤ g.offset ∨ g.offset + g.width ≤ f.offset

instance (f g : BitField n) : Decidable (f.Apart g) := inferInstanceAs (Decidable (_ ∨ _ ∨ _))

def putAll (fields : List (BitField n × Nat)) (bytes : Vector UInt8 n) : Vector UInt8 n :=
  fields.foldl (fun bytes x => x.1.put bytes x.2) bytes

theorem putAll_cons (x : BitField n × Nat) (fields : List (BitField n × Nat))
    (bytes : Vector UInt8 n) :
    putAll (x :: fields) bytes = putAll fields (x.1.put bytes x.2) := rfl

variable {f g : BitField n} {fields : List (BitField n × Nat)} {bytes bytes' : Vector UInt8 n}
  {i : Fin n} {j value : Nat}

theorem Apart.not_covers (h : f.Apart g) (hf : f.Covers i j) : ¬g.Covers i j := by
  rintro ⟨hbyte, hlow, hhigh⟩
  obtain ⟨hbyte', hlow', hhigh'⟩ := hf
  rcases h with hne | hle | hle
  · exact hne (hbyte'.symm.trans hbyte)
  · omega
  · omega

theorem bitAt_putAll_of_not (hj : j < 8) (h : ∀ x ∈ fields, ¬x.1.Covers i j) :
    bitAt (putAll fields bytes) i j = bitAt bytes i j := by
  induction fields generalizing bytes with
  | nil => rfl
  | cons x fields ih =>
    rw [putAll_cons, ih fun y hy => h y (List.mem_cons_of_mem _ hy), bitAt_put _ _ _ _ hj,
      if_neg (h x List.mem_cons_self)]

/-- What has been stored can be read. -/
theorem bitAt_putAll_of_mem (hj : j < 8) (hapart : (fields.map Prod.fst).Pairwise Apart)
    (hmem : (f, value) ∈ fields) (hcovers : f.Covers i j) :
    bitAt (putAll fields bytes) i j = value.testBit (j - f.offset) := by
  induction fields generalizing bytes with
  | nil => exact absurd hmem List.not_mem_nil
  | cons x fields ih =>
    obtain ⟨hfirst, hrest⟩ := List.pairwise_cons.mp hapart
    rw [putAll_cons]
    rcases List.mem_cons.mp hmem with rfl | hmem
    · -- The fields that are stored later are apart from this one.
      rw [bitAt_putAll_of_not hj, bitAt_put _ _ _ _ hj, if_pos hcovers]
      exact fun y hy => (hfirst y.1 (List.mem_map_of_mem hy)).not_covers hcovers
    · exact ih hrest hmem

theorem getElem_eq_of_bits {x y : UInt8}
    (h : ∀ j < 8, x.toBitVec.getLsbD j = y.toBitVec.getLsbD j) : x = y :=
  UInt8.toBitVec_inj.mp (BitVec.eq_of_getLsbD_eq h)

/-- Writing what is there changes nothing. -/
theorem put_get (f : BitField n) (bytes : Vector UInt8 n) :
    f.put bytes (f.get bytes).toNat = bytes := by
  refine Vector.ext fun i hi => getElem_eq_of_bits fun j hj => ?_
  have hbit := f.bitAt_put bytes (f.get bytes).toNat ⟨i, hi⟩ hj
  by_cases hcovers : f.Covers ⟨i, hi⟩ j
  · obtain ⟨hbyte, hlow, hhigh⟩ := hcovers
    have hwidth : j - f.offset < f.width := by omega
    have hget := f.getLsbD_get bytes hwidth
    rw [if_pos ⟨hbyte, hlow, hhigh⟩, BitVec.testBit_toNat, hget, Nat.add_sub_cancel' hlow,
      ← hbyte] at hbit
    exact hbit
  · rw [if_neg hcovers] at hbit
    exact hbit

/-! ## Agreement -/

/-- The bit is in one of the fields. -/
def Within (owned : List (BitField n)) (i : Fin n) (j : Nat) : Prop := ∃ f ∈ owned, f.Covers i j

instance (owned : List (BitField n)) (i : Fin n) (j : Nat) : Decidable (Within owned i j) :=
  inferInstanceAs (Decidable (∃ f ∈ owned, f.Covers i j))

/-- The arrays are the same outside the fields. -/
def AgreeOutside (owned : List (BitField n)) (bytes bytes' : Vector UInt8 n) : Prop :=
  ∀ i, ∀ j < 8, ¬Within owned i j → bitAt bytes i j = bitAt bytes' i j

variable {owned : List (BitField n)} {bytes'' : Vector UInt8 n}

theorem AgreeOutside.refl (owned : List (BitField n)) (bytes : Vector UInt8 n) :
    AgreeOutside owned bytes bytes := fun _ _ _ _ => rfl

theorem AgreeOutside.symm (h : AgreeOutside owned bytes bytes') :
    AgreeOutside owned bytes' bytes := fun i j hj hout => (h i j hj hout).symm

theorem AgreeOutside.trans (h : AgreeOutside owned bytes bytes')
    (h' : AgreeOutside owned bytes' bytes'') : AgreeOutside owned bytes bytes'' :=
  fun i j hj hout => (h i j hj hout).trans (h' i j hj hout)

/-- Bytes that no field is in are the same. -/
theorem AgreeOutside.getElem_eq (h : AgreeOutside owned bytes bytes')
    (hi : ∀ f ∈ owned, f.byte ≠ i) : getElem bytes i i.isLt = getElem bytes' i i.isLt :=
  getElem_eq_of_bits fun j hj =>
    h i j hj fun ⟨f, hf, hcovers⟩ => hi f hf hcovers.1.symm

/-- A write of the same value keeps the agreement. -/
theorem AgreeOutside.put (h : AgreeOutside owned bytes bytes') (f : BitField n) (value : Nat) :
    AgreeOutside owned (f.put bytes value) (f.put bytes' value) := by
  intro i j hj hout
  rw [bitAt_put _ _ _ _ hj, bitAt_put _ _ _ _ hj, h i j hj hout]

/-- Writes to the fields do not show. -/
theorem agreeOutside_putAll (h : ∀ x ∈ fields, x.1 ∈ owned) (bytes : Vector UInt8 n) :
    AgreeOutside owned (putAll fields bytes) bytes :=
  fun _ _ hj hout => bitAt_putAll_of_not hj fun x hx hcovers => hout ⟨x.1, h x hx, hcovers⟩

theorem AgreeOutside.mono {owned' : List (BitField n)} (h : AgreeOutside owned bytes bytes')
    (hsubset : ∀ f ∈ owned, f ∈ owned') : AgreeOutside owned' bytes bytes' :=
  fun i j hj hout => h i j hj fun ⟨f, hf, hcovers⟩ => hout ⟨f, hsubset f hf, hcovers⟩

theorem AgreeOutside.set (h : AgreeOutside owned bytes bytes') (i : Fin n) (byte : UInt8) :
    AgreeOutside owned (bytes.set i byte i.isLt) (bytes'.set i byte i.isLt) := by
  intro k j hj hout
  by_cases hk : k = i
  · subst hk
    rw [bitAt, bitAt, Fin.getElem_fin, Fin.getElem_fin, Vector.getElem_set_self,
      Vector.getElem_set_self]
  · have hne : i.val ≠ k.val := fun heq => hk (Fin.ext heq.symm)
    rw [bitAt, bitAt, Fin.getElem_fin, Fin.getElem_fin, Vector.getElem_set_ne _ _ hne,
      Vector.getElem_set_ne _ _ hne]
    exact h k j hj hout

end BitField
