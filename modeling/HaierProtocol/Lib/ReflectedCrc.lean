import Mathlib.Data.Nat.Init

/-!
# Reflected cyclic redundancy checks

A reflected CRC of width `w` shifts its register towards the low end and exclusive-ors
the polynomial in when a one falls out.  A shift is linear in exclusive or, so the
eight shifts a byte costs are those of the register's low octet alone, with the
rest moved down eight places: this is what a 256-entry table exploits
(`byte_table`).  They are also what its eight bits cost one after the other, the lowest first
(`crc_bits`).

Where the polynomial has its top bit, a shift loses nothing, so different registers stay
different (`crc_injective`).  Bytes that together fit the register act like their exclusive or
with it, so different bursts of that length leave different registers (`crc_burst`).
-/

namespace ReflectedCrc

variable {w : Nat} (poly : BitVec w)

/-- One shift of the register. -/
def shift (c : BitVec w) : BitVec w :=
  if c.getLsbD 0 then (c >>> 1) ^^^ poly else c >>> 1

def shifts : Nat → BitVec w → BitVec w
  | 0, c => c
  | n + 1, c => shift poly (shifts n c)

/-- The register after one more byte, fed low bit first. -/
def byte (c : BitVec w) (b : BitVec 8) : BitVec w := shifts poly 8 (c ^^^ b.setWidth w)

/-- The register after a sequence of bytes. -/
def crc (init : BitVec w) (bytes : List (BitVec 8)) : BitVec w := bytes.foldl (byte poly) init

theorem shift_xor (a b : BitVec w) : shift poly (a ^^^ b) = shift poly a ^^^ shift poly b := by
  unfold shift
  rw [BitVec.getLsbD_xor, BitVec.ushiftRight_xor_distrib]
  cases a.getLsbD 0 <;> cases b.getLsbD 0
  · simp
  · simp [BitVec.xor_assoc]
  · simp only [Bool.xor_false, if_true, Bool.false_eq_true, if_false]
    rw [BitVec.xor_assoc, BitVec.xor_comm (b >>> 1), BitVec.xor_assoc]
  · -- Both registers take the polynomial in, and it cancels.
    simp only [bne_self_eq_false, Bool.false_eq_true, if_false, if_true]
    rw [BitVec.xor_assoc (a >>> 1), BitVec.xor_comm (b >>> 1), ← BitVec.xor_assoc poly,
      BitVec.xor_self, BitVec.zero_xor]

theorem shifts_xor (n : Nat) (a b : BitVec w) :
    shifts poly n (a ^^^ b) = shifts poly n a ^^^ shifts poly n b := by
  induction n with
  | zero => rfl
  | succ n ih => rw [shifts, shifts, shifts, ih, shift_xor]

/-- While only zeros fall out, a shift is a plain shift. -/
theorem shifts_of_low_clear {c : BitVec w} {m : Nat} (h : ∀ i, i < m → c.getLsbD i = false) :
    ∀ n, n ≤ m → shifts poly n c = c >>> n := by
  intro n
  induction n with
  | zero => intro _; simp [shifts]
  | succ n ih =>
    intro hn
    have hlow : (c >>> n).getLsbD 0 = false := by simpa using h n (by omega)
    rw [shifts, ih (by omega), shift, hlow, if_neg (by decide), BitVec.shiftRight_add]

theorem getLsbD_octet (i : Nat) : (255#w).getLsbD i = decide (i < 8 ∧ i < w) := by
  rw [BitVec.getLsbD_ofNat, show (255 : Nat) = 2 ^ 8 - 1 by rfl, Nat.testBit_two_pow_sub_one]
  by_cases h1 : i < 8 <;> by_cases h2 : i < w <;> simp [h1, h2]

theorem low_xor_high (c : BitVec w) : (c &&& ~~~255#w) ^^^ (c &&& 255#w) = c := by
  refine BitVec.eq_of_getLsbD_eq (fun i hi => ?_)
  rw [BitVec.getLsbD_xor, BitVec.getLsbD_and, BitVec.getLsbD_and, BitVec.getLsbD_not]
  cases c.getLsbD i <;> cases (255#w).getLsbD i <;> simp [hi]

theorem high_ushiftRight (c : BitVec w) : (c &&& ~~~255#w) >>> 8 = c >>> 8 := by
  refine BitVec.eq_of_getLsbD_eq (fun i hi => ?_)
  rw [BitVec.getLsbD_ushiftRight, BitVec.getLsbD_ushiftRight, BitVec.getLsbD_and,
    BitVec.getLsbD_not, getLsbD_octet]
  by_cases h : 8 + i < w
  · simp [h]
  · simp [BitVec.getLsbD_of_ge c (8 + i) (by omega)]

theorem shifts_eight (c : BitVec w) :
    shifts poly 8 c = (c >>> 8) ^^^ shifts poly 8 (c &&& 255#w) := by
  have hclear : ∀ i, i < 8 → (c &&& ~~~255#w).getLsbD i = false := by
    intro i hi
    rw [BitVec.getLsbD_and, BitVec.getLsbD_not, getLsbD_octet]
    by_cases h : i < w <;> simp [h, hi]
  have hsplit := shifts_xor poly 8 (c &&& ~~~255#w) (c &&& 255#w)
  rw [low_xor_high, shifts_of_low_clear poly hclear 8 (Nat.le_refl 8), high_ushiftRight] at hsplit
  exact hsplit

/-- A byte costs one lookup: the entry for an octet is its eight shifts. -/
theorem byte_table (c : BitVec w) (b : BitVec 8) :
    byte poly c b = (c >>> 8) ^^^ shifts poly 8 ((c ^^^ b.setWidth w) &&& 255#w) := by
  have hb : (b.setWidth w) >>> 8 = 0#w := by
    refine BitVec.eq_of_getLsbD_eq (fun i _ => ?_)
    rw [BitVec.getLsbD_ushiftRight, BitVec.getLsbD_setWidth,
      BitVec.getLsbD_of_ge b (8 + i) (by omega)]
    simp
  rw [byte, shifts_eight, BitVec.ushiftRight_xor_distrib, hb, BitVec.xor_zero]

/-! ## One bit after the other -/

/-- The register after one more bit. -/
def bit (c : BitVec w) (b : Bool) : BitVec w := shift poly (c ^^^ (BitVec.ofBool b).setWidth w)

/-- The first `n` bits of `x`, the lowest first. -/
def lowBits {v : Nat} (n : Nat) (x : BitVec v) : List Bool := (List.range n).map x.getLsbD

theorem shift_low_xor (c x : BitVec w) :
    shift poly (c ^^^ x) = bit poly c (x.getLsbD 0) ^^^ x >>> 1 := by
  have hrest : (x ^^^ (BitVec.ofBool (x.getLsbD 0)).setWidth w).getLsbD 0 = false := by
    rw [BitVec.getLsbD_xor, BitVec.getLsbD_setWidth, BitVec.getLsbD_ofBool]
    by_cases h : 0 < w
    · simp [h]
    · simp [BitVec.getLsbD_of_ge x 0 (by omega)]
  have hdown : ((BitVec.ofBool (x.getLsbD 0)).setWidth w) >>> 1 = 0#w := by
    refine BitVec.eq_of_getLsbD_eq (fun i _ => ?_)
    rw [BitVec.getLsbD_ushiftRight, BitVec.getLsbD_setWidth, BitVec.getLsbD_ofBool]
    simp
  have hsplit : c ^^^ x = (c ^^^ (BitVec.ofBool (x.getLsbD 0)).setWidth w) ^^^
      (x ^^^ (BitVec.ofBool (x.getLsbD 0)).setWidth w) := by
    rw [BitVec.xor_comm x, ← BitVec.xor_assoc, BitVec.xor_assoc c, BitVec.xor_self, BitVec.xor_zero]
  have hplain : shift poly (x ^^^ (BitVec.ofBool (x.getLsbD 0)).setWidth w) = x >>> 1 := by
    rw [shift, hrest, if_neg Bool.false_ne_true, BitVec.ushiftRight_xor_distrib, hdown,
      BitVec.xor_zero]
  rw [hsplit, shift_xor, hplain, bit]

theorem shifts_lowBits (c x : BitVec w) (n : Nat) :
    shifts poly n (c ^^^ x) = (lowBits n x).foldl (bit poly) c ^^^ x >>> n := by
  induction n with
  | zero => rfl
  | succ n ih =>
    have hbit : (x >>> n).getLsbD 0 = x.getLsbD n := by
      rw [BitVec.getLsbD_ushiftRight, Nat.add_zero]
    rw [shifts, ih, shift_low_xor, hbit, BitVec.shiftRight_add, lowBits, lowBits, List.range_succ,
      List.map_append, List.foldl_append]
    rfl

theorem byte_bits (hw : 8 ≤ w) (c : BitVec w) (b : BitVec 8) :
    byte poly c b = (lowBits 8 b).foldl (bit poly) c := by
  have hgone : (b.setWidth w) >>> 8 = 0#w := by
    refine BitVec.eq_of_getLsbD_eq (fun i _ => ?_)
    rw [BitVec.getLsbD_ushiftRight, BitVec.getLsbD_setWidth,
      BitVec.getLsbD_of_ge b (8 + i) (by omega)]
    simp
  have hbits : lowBits 8 (b.setWidth w) = lowBits 8 b := by
    refine List.map_congr_left (fun i hi => ?_)
    have hi8 : i < 8 := List.mem_range.mp hi
    rw [BitVec.getLsbD_setWidth, decide_eq_true (show i < w by omega), Bool.true_and]
  rw [byte, shifts_lowBits, hgone, BitVec.xor_zero, hbits]

/-- Feeding the bytes is feeding their bits. -/
theorem crc_bits (hw : 8 ≤ w) (c : BitVec w) (bytes : List (BitVec 8)) :
    crc poly c bytes = (bytes.flatMap (lowBits 8)).foldl (bit poly) c := by
  induction bytes generalizing c with
  | nil => rfl
  | cons b bytes ih =>
    rw [List.flatMap_cons, List.foldl_append, ← byte_bits poly hw]
    exact ih _

/-! ## What a CRC tells apart -/

theorem shifts_add (m n : Nat) (c : BitVec w) :
    shifts poly (m + n) c = shifts poly m (shifts poly n c) := by
  induction m with
  | zero => rw [Nat.zero_add, shifts]
  | succ m ih => rw [Nat.succ_add, shifts, shifts, ih]

section Injective

variable {poly} (hpoly : poly.getLsbD (w - 1) = true)
include hpoly

theorem eq_zero_of_shift {c : BitVec w} (h : shift poly c = 0#w) : c = 0#w := by
  have hwidth : 0 < w := by
    refine Nat.pos_of_ne_zero (fun hzero => ?_)
    rw [BitVec.getLsbD_of_ge poly (w - 1) (by omega)] at hpoly
    exact Bool.false_ne_true hpoly
  have hbits : ∀ i, (shift poly c).getLsbD i = false := fun i => by rw [h, BitVec.getLsbD_zero]
  cases hlow : c.getLsbD 0 with
  | true =>
    -- The one that falls out brings in the top bit of the polynomial.
    have htop := hbits (w - 1)
    rw [shift, hlow, if_pos rfl, BitVec.getLsbD_xor, BitVec.getLsbD_ushiftRight, hpoly,
      BitVec.getLsbD_of_ge c (1 + (w - 1)) (by omega)] at htop
    exact absurd htop (by decide)
  | false =>
    refine BitVec.eq_of_getLsbD_eq (fun i hi => ?_)
    rw [BitVec.getLsbD_zero]
    cases i with
    | zero => exact hlow
    | succ i =>
      have hbit := hbits i
      rwa [shift, hlow, if_neg Bool.false_ne_true, BitVec.getLsbD_ushiftRight, Nat.add_comm] at hbit

theorem shift_injective {a b : BitVec w} (h : shift poly a = shift poly b) : a = b := by
  have hzero : shift poly (a ^^^ b) = 0#w := by rw [shift_xor, h, BitVec.xor_self]
  exact BitVec.xor_eq_zero_iff.mp (eq_zero_of_shift hpoly hzero)

theorem shifts_injective {n : Nat} {a b : BitVec w} (h : shifts poly n a = shifts poly n b) :
    a = b := by
  induction n with
  | zero => exact h
  | succ n ih => exact ih (shift_injective hpoly h)

theorem byte_injective {a b : BitVec w} {d : BitVec 8} (h : byte poly a d = byte poly b d) :
    a = b := by
  have hxor := shifts_injective hpoly h
  rwa [BitVec.xor_left_inj] at hxor

/-- Different registers stay different whatever follows. -/
theorem crc_injective {a b : BitVec w} {bytes : List (BitVec 8)}
    (h : crc poly a bytes = crc poly b bytes) : a = b := by
  induction bytes generalizing a b with
  | nil => exact h
  | cons d bytes ih => exact byte_injective hpoly (ih h)

end Injective

/-- The bytes as they lie in the register, the first lowest. -/
def pack : List (BitVec 8) → BitVec w
  | [] => 0#w
  | b :: bytes => b.setWidth w ^^^ (pack bytes <<< 8)

theorem getLsbD_pack (bytes : List (BitVec 8)) : ∀ i, 8 * bytes.length ≤ i →
    (pack bytes : BitVec w).getLsbD i = false := by
  induction bytes with
  | nil => exact fun i _ => BitVec.getLsbD_zero
  | cons b bytes ih =>
    intro i hi
    rw [List.length_cons] at hi
    rw [pack, BitVec.getLsbD_xor, BitVec.getLsbD_setWidth, BitVec.getLsbD_of_ge b i (by omega),
      BitVec.getLsbD_shiftLeft, ih (i - 8) (by omega)]
    simp

theorem shiftLeft_pack {bytes : List (BitVec 8)} (h : 8 * (bytes.length + 1) ≤ w) :
    (pack bytes <<< 8 : BitVec w) >>> 8 = pack bytes := by
  refine BitVec.eq_of_getLsbD_eq (fun i hi => ?_)
  rw [BitVec.getLsbD_ushiftRight, BitVec.getLsbD_shiftLeft, Nat.add_sub_cancel_left]
  by_cases hin : i < 8 * bytes.length
  · have h1 : 8 + i < w := by omega
    simp [h1]
  · rw [getLsbD_pack bytes i (by omega), Bool.and_false]

/-- Bytes that fit the register together are one exclusive or and then the shifts. -/
theorem crc_eq_shifts {bytes : List (BitVec 8)} (h : 8 * bytes.length ≤ w) (c : BitVec w) :
    crc poly c bytes = shifts poly (8 * bytes.length) (c ^^^ pack bytes) := by
  induction bytes generalizing c with
  | nil => simp [crc, shifts, pack]
  | cons b bytes ih =>
    rw [List.length_cons] at h
    have hclear : ∀ i, i < 8 → (pack bytes <<< 8 : BitVec w).getLsbD i = false := by
      intro i hi
      rw [BitVec.getLsbD_shiftLeft]
      simp [hi]
    have hfirst : shifts poly 8 (c ^^^ (b.setWidth w ^^^ pack bytes <<< 8)) =
        byte poly c b ^^^ pack bytes := by
      rw [← BitVec.xor_assoc, shifts_xor, shifts_of_low_clear poly hclear 8 (Nat.le_refl 8),
        shiftLeft_pack h, byte]
    show crc poly (byte poly c b) bytes = _
    rw [ih (by omega), List.length_cons, Nat.mul_succ, shifts_add, pack, hfirst]

theorem pack_injective {l m : List (BitVec 8)} (hlen : l.length = m.length)
    (hw : 8 * l.length ≤ w) (h : (pack l : BitVec w) = pack m) : l = m := by
  induction l generalizing m with
  | nil => exact (List.length_eq_zero_iff.mp hlen.symm).symm
  | cons a l ih =>
    cases m with
    | nil => simp at hlen
    | cons b m =>
      rw [List.length_cons] at hw
      have hlen' : l.length = m.length := Nat.succ.inj hlen
      rw [pack, pack] at h
      have hab : a = b := by
        refine BitVec.eq_of_getLsbD_eq (fun i hi => ?_)
        have hbit := congrArg (fun v => v.getLsbD i) h
        have hiw : i < w := by omega
        simpa [BitVec.getLsbD_xor, BitVec.getLsbD_setWidth, BitVec.getLsbD_shiftLeft, hi, hiw]
          using hbit
      rw [hab, BitVec.xor_right_inj] at h
      have hshift := congrArg (fun v : BitVec w => v >>> 8) h
      simp only [shiftLeft_pack (show 8 * (l.length + 1) ≤ w by omega),
        shiftLeft_pack (show 8 * (m.length + 1) ≤ w by omega)] at hshift
      rw [hab, ih hlen' (by omega) hshift]

/-- Different bursts that fit the register leave it different. -/
theorem crc_burst (hpoly : poly.getLsbD (w - 1) = true) {l m : List (BitVec 8)} {c : BitVec w}
    (hlen : l.length = m.length) (hw : 8 * l.length ≤ w) (h : crc poly c l = crc poly c m) :
    l = m := by
  rw [crc_eq_shifts poly hw, crc_eq_shifts poly (hlen ▸ hw), hlen] at h
  have hpack := shifts_injective hpoly h
  rw [BitVec.xor_right_inj] at hpack
  exact pack_injective hlen hw hpack

end ReflectedCrc
