import Mathlib.Algebra.Group.Nat.Even

/-!
# Bit fields

A bit field is a run of bits within a byte of an array.  Writing one truncates the value to the
width of the field, can be read back (`toNat_get_put`), and leaves every other bit of the array as
it is (`bitAt_put`).
-/

/-- `width` bits of the byte `byte` out of `n`, the lowest of them at `offset`. -/
structure BitField (n : Nat) where
  byte : Fin n
  offset : Nat
  width : Nat
  fits : offset + width ≤ 8 := by decide

namespace BitField

variable {n : Nat}

def bitAt (bytes : Vector UInt8 n) (i : Fin n) (j : Nat) : Bool := bytes[i].toBitVec.getLsbD j

def get (f : BitField n) (bytes : Vector UInt8 n) : BitVec f.width :=
  bytes[f.byte].toBitVec.extractLsb' f.offset f.width

/-- The bits of the field, within its byte. -/
def mask (f : BitField n) : BitVec 8 := ((BitVec.allOnes f.width).setWidth 8) <<< f.offset

def putByte (f : BitField n) (byte : UInt8) (value : Nat) : UInt8 :=
  ⟨(byte.toBitVec &&& ~~~f.mask) ||| ((BitVec.ofNat f.width value).setWidth 8 <<< f.offset)⟩

def put (f : BitField n) (bytes : Vector UInt8 n) (value : Nat) : Vector UInt8 n :=
  bytes.set f.byte (f.putByte bytes[f.byte] value) f.byte.isLt

/-- The bit is one of the field. -/
def Covers (f : BitField n) (i : Fin n) (j : Nat) : Prop :=
  i = f.byte ∧ f.offset ≤ j ∧ j < f.offset + f.width

instance (f : BitField n) (i : Fin n) (j : Nat) : Decidable (f.Covers i j) :=
  inferInstanceAs (Decidable (_ ∧ _))

theorem getLsbD_get (f : BitField n) (bytes : Vector UInt8 n) {j : Nat} (hj : j < f.width) :
    (f.get bytes).getLsbD j = bitAt bytes f.byte (f.offset + j) := by
  rw [get, BitVec.getLsbD_extractLsb', decide_eq_true hj, Bool.true_and, bitAt]

theorem getLsbD_mask (f : BitField n) {j : Nat} (hj : j < 8) :
    f.mask.getLsbD j = decide (f.offset ≤ j ∧ j < f.offset + f.width) := by
  rw [mask, BitVec.getLsbD_shiftLeft, BitVec.getLsbD_setWidth, BitVec.getLsbD_allOnes]
  by_cases hlow : f.offset ≤ j
  · have hin : j - f.offset < 8 := by omega
    have hiff : j - f.offset < f.width ↔ j < f.offset + f.width := by omega
    simp [hj, hin, hlow, hiff]
  · simp [hj, hlow]

theorem getLsbD_putByte (f : BitField n) (byte : UInt8) (value : Nat) {j : Nat} (hj : j < 8) :
    (f.putByte byte value).toBitVec.getLsbD j =
      if f.offset ≤ j ∧ j < f.offset + f.width then value.testBit (j - f.offset)
      else byte.toBitVec.getLsbD j := by
  rw [putByte, BitVec.getLsbD_or, BitVec.getLsbD_and, BitVec.getLsbD_not, f.getLsbD_mask hj,
    BitVec.getLsbD_shiftLeft, BitVec.getLsbD_setWidth, BitVec.getLsbD_ofNat]
  by_cases hin : f.offset ≤ j ∧ j < f.offset + f.width
  · have hwidth : j - f.offset < f.width := by omega
    have height : j - f.offset < 8 := by omega
    simp [hin, hj, hwidth, height]
  · rw [if_neg hin, decide_eq_false hin]
    by_cases hlow : f.offset ≤ j
    · have hwidth : ¬j - f.offset < f.width := by omega
      simp [hj, hwidth]
    · simp [hj, hlow]

theorem getElem_put (f : BitField n) (bytes : Vector UInt8 n) (value : Nat) (i : Fin n) :
    (f.put bytes value)[i] = if f.byte = i then f.putByte bytes[f.byte] value else bytes[i] := by
  rw [put, Fin.getElem_fin, Vector.getElem_set]
  by_cases heq : f.byte = i
  · rw [if_pos (congrArg Fin.val heq), if_pos heq]
  · rw [if_neg (fun hval => heq (Fin.ext hval)), if_neg heq]
    rfl

/-- Writing a field changes its bits and no others. -/
theorem bitAt_put (f : BitField n) (bytes : Vector UInt8 n) (value : Nat) (i : Fin n) {j : Nat}
    (hj : j < 8) :
    bitAt (f.put bytes value) i j =
      if f.Covers i j then value.testBit (j - f.offset) else bitAt bytes i j := by
  rw [bitAt, getElem_put]
  by_cases heq : f.byte = i
  · subst heq
    rw [if_pos rfl, f.getLsbD_putByte _ _ hj]
    by_cases hin : f.offset ≤ j ∧ j < f.offset + f.width
    · rw [if_pos hin, if_pos ⟨rfl, hin⟩]
    · rw [if_neg hin, if_neg (fun hcovers => hin hcovers.2)]
      rfl
  · rw [if_neg heq, if_neg (fun hcovers => heq hcovers.1.symm)]
    rfl

theorem get_put (f : BitField n) (bytes : Vector UInt8 n) (value : Nat) :
    f.get (f.put bytes value) = BitVec.ofNat f.width value := by
  have hfits := f.fits
  refine BitVec.eq_of_getLsbD_eq (fun j hj => ?_)
  rw [getLsbD_get _ _ hj, bitAt_put _ _ _ _ (by omega), BitVec.getLsbD_ofNat,
    if_pos ⟨rfl, Nat.le_add_right _ _, by omega⟩, Nat.add_sub_cancel_left, decide_eq_true hj,
    Bool.true_and]

/-- A value that the field can hold is read back. -/
theorem toNat_get_put (f : BitField n) (bytes : Vector UInt8 n) {value : Nat}
    (hvalue : value < 2 ^ f.width) : (f.get (f.put bytes value)).toNat = value := by
  rw [f.get_put, BitVec.toNat_ofNat, Nat.mod_eq_of_lt hvalue]

end BitField
