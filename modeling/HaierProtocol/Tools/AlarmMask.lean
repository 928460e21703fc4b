import HaierProtocol.Tools.HonServer

/-!
# The alarm mask

Every alarm has a bit of the mask, and raising it sets that bit and no other.  A reset clears the
first `wordSize` bytes of the eight, where the alarms with the highest numbers have their bits.  So
on a platform with a smaller word the others stay raised (`mask_recorded_iff`).
-/

namespace HaierProtocol.Hon

namespace Alarms

variable {a : Alarms} {wordSize p : Nat}

/-! ## Bits -/

theorem alarmByte_lt (p : Nat) : alarmBufSize - 1 - p / 8 < alarmBufSize := by
  unfold alarmBufSize
  omega

/-- The byte with the bit `p`. -/
def alarmByte (p : Nat) : Fin alarmBufSize := ⟨alarmBufSize - 1 - p / 8, alarmByte_lt p⟩

def byteAt (a : Alarms) (i : Fin alarmBufSize) : UInt8 := a.alarmStatusBuf.get i

/-- The bit `p` of the buffer, counted from the low bit of its last byte. -/
def raised (a : Alarms) (p : Nat) : Bool :=
  (a.byteAt (alarmByte p)).toBitVec.getLsbD (p % 8)

theorem alarmByte_inj {q : Nat} (hp : p < 64) (hq : q < 64) :
    alarmByte p = alarmByte q ↔ p / 8 = q / 8 := by
  simp only [alarmByte, alarmBufSize, Fin.mk.injEq]
  omega

theorem getLsbD_bit (alarmId : UInt8) {j : Nat} (hj : j < 8) :
    ((1 : UInt8) <<< (alarmId % 8)).toBitVec.getLsbD j = decide (alarmId.toNat % 8 = j) := by
  have hall : ∀ k j : Fin 8, ((1 : UInt8) <<< UInt8.ofNat k.val).toBitVec.getLsbD j.val =
      decide (k.val = j.val) := by decide
  have hk : alarmId % 8 = UInt8.ofNat (alarmId.toNat % 8) := by
    refine UInt8.toNat.inj ?_
    rw [UInt8.toNat_mod, UInt8.toNat_ofNat']
    show alarmId.toNat % 8 = _
    omega
  rw [hk]
  exact hall ⟨alarmId.toNat % 8, by omega⟩ ⟨j, hj⟩

/-- Unknown alarms are refused. -/
theorem startAlarm_rejected {alarmId : UInt8} (h : honAlarmCount ≤ alarmId.toNat) (a : Alarms) :
    a.startAlarm alarmId = (a, false) := if_pos h

theorem byteAt_startAlarm {alarmId : UInt8} (h : alarmId.toNat < honAlarmCount)
    (i : Fin alarmBufSize) :
    (a.startAlarm alarmId).1.byteAt i =
      if alarmByte alarmId.toNat = i then a.byteAt i ||| 1 <<< (alarmId % 8) else a.byteAt i := by
  have hbuf : (a.startAlarm alarmId).1.alarmStatusBuf =
      a.alarmStatusBuf.set (alarmByte alarmId.toNat)
        (a.byteAt (alarmByte alarmId.toNat) ||| 1 <<< (alarmId % 8))
        (alarmByte alarmId.toNat).isLt := by
    rw [startAlarm, if_neg (Nat.not_le.mpr h)]
    rfl
  show (a.startAlarm alarmId).1.alarmStatusBuf[i.val] = _
  simp only [hbuf]
  rw [Vector.getElem_set]
  by_cases heq : alarmByte alarmId.toNat = i
  · rw [if_pos (congrArg Fin.val heq), if_pos heq, heq]
  · rw [if_neg (fun hval => heq (Fin.ext hval)), if_neg heq]
    rfl

theorem raised_startAlarm {alarmId : UInt8} (hp : p < 64) (h : alarmId.toNat < honAlarmCount) :
    (a.startAlarm alarmId).1.raised p = true ↔ a.raised p = true ∨ p = alarmId.toNat := by
  have hid : alarmId.toNat < 64 := Nat.lt_of_lt_of_le h (by decide)
  rw [raised, raised, byteAt_startAlarm h]
  by_cases hbyte : alarmId.toNat / 8 = p / 8
  · rw [if_pos ((alarmByte_inj hid hp).mpr hbyte), UInt8.toBitVec_or, BitVec.getLsbD_or,
      getLsbD_bit _ (by omega), Bool.or_eq_true, decide_eq_true_eq]
    refine or_congr_right ?_
    omega
  · rw [if_neg ((alarmByte_inj hid hp).not.mpr hbyte)]
    refine (or_iff_left ?_).symm
    intro heq
    exact hbyte (by rw [heq])

/-- The bits that `memset` reaches. -/
theorem raised_resetAlarms (wordSize : Nat) (a : Alarms) (p : Nat) :
    (a.resetAlarms wordSize).raised p = true ↔
      a.raised p = true ∧ wordSize ≤ (alarmByte p).val := by
  have hbyte : (a.resetAlarms wordSize).byteAt (alarmByte p) =
      if (alarmByte p).val < wordSize then 0 else a.byteAt (alarmByte p) := by
    show (a.resetAlarms wordSize).alarmStatusBuf[(alarmByte p).val] = _
    simp only [resetAlarms]
    rw [Vector.getElem_ofFn]
    rfl
  rw [raised, raised, hbyte]
  by_cases h : (alarmByte p).val < wordSize
  · rw [if_pos h]
    exact iff_of_false (by simp) fun hand => Nat.not_lt.mpr hand.2 h
  · rw [if_neg h]
    exact (and_iff_left (Nat.not_lt.mp h)).symm

theorem raised_initial (now : TimePoint) (p : Nat) : (initial now).raised p = false := by
  have hbyte : (initial now).byteAt (alarmByte p) = 0 := Vector.getElem_replicate (alarmByte_lt p)
  rw [raised, hbyte]
  exact BitVec.getLsbD_zero

/-- No alarm is active where no bit is set. -/
theorem hasActiveAlarms_eq_false (h : ∀ p < 64, a.raised p = false) :
    a.hasActiveAlarms = false := by
  rw [hasActiveAlarms, Vector.any_eq_false]
  intro i hi
  rw [bne_iff_ne, ne_eq, not_not, ← UInt8.toBitVec_inj]
  refine BitVec.eq_of_getLsbD_eq (fun j hj => ?_)
  have hbyte : alarmByte (8 * (alarmBufSize - 1 - i) + j) = ⟨i, hi⟩ := by
    refine Fin.ext ?_
    unfold alarmByte alarmBufSize at *
    show 8 - 1 - (8 * (8 - 1 - i) + j) / 8 = i
    omega
  have hbit := h (8 * (alarmBufSize - 1 - i) + j) (by unfold alarmBufSize at *; omega)
  rw [raised, hbyte, Nat.mul_add_mod, Nat.mod_eq_of_lt hj] at hbit
  exact hbit.trans BitVec.getLsbD_zero.symm

/-! ## Calls -/

inductive MaskCall where
  | startAlarm (alarmId : UInt8)
  | resetAlarms
deriving DecidableEq

def call (wordSize : Nat) (a : Alarms) : MaskCall → Alarms
  | .startAlarm alarmId => (a.startAlarm alarmId).1
  | .resetAlarms => a.resetAlarms wordSize

/-- The calls so far, from no alarms. -/
def after (wordSize : Nat) (now : TimePoint) (calls : List MaskCall) : Alarms :=
  calls.foldl (call wordSize) (initial now)

/-- The alarm was started, and no reset has come since. -/
def StartedSinceReset (calls : List MaskCall) (p : Nat) : Prop :=
  ∃ before alarmId later, calls = before ++ .startAlarm alarmId :: later ∧
    alarmId.toNat = p ∧ .resetAlarms ∉ later

/-- The alarm was started at some time. -/
def Started (calls : List MaskCall) (p : Nat) : Prop :=
  ∃ alarmId, .startAlarm alarmId ∈ calls ∧ alarmId.toNat = p

/-- What the mask and the calls have to be like after `calls`. -/
structure Recorded (wordSize : Nat) (now : TimePoint) (calls : List MaskCall) : Prop where
  mask : ∀ p < 64, (after wordSize now calls).raised p = true ↔
    p < honAlarmCount ∧ StartedSinceReset calls p
  rejected : ∀ alarmId : UInt8, honAlarmCount ≤ alarmId.toNat →
    (after wordSize now calls).startAlarm alarmId = (after wordSize now calls, false)
  reset : calls.getLast? = some .resetAlarms →
    (after wordSize now calls).hasActiveAlarms = false

theorem startedSinceReset_snoc_start (calls : List MaskCall) (alarmId : UInt8) :
    StartedSinceReset (calls ++ [.startAlarm alarmId]) p ↔
      StartedSinceReset calls p ∨ p = alarmId.toNat := by
  constructor
  · rintro ⟨before, started, later, heq, hp, hlater⟩
    rcases List.eq_nil_or_concat' later with rfl | ⟨later, last, rfl⟩
    · obtain ⟨-, hlast⟩ := List.append_inj' heq rfl
      cases hlast
      exact .inr hp.symm
    · rw [← List.cons_append, ← List.append_assoc] at heq
      obtain ⟨hcalls, -⟩ := List.append_inj' heq rfl
      exact .inl ⟨before, started, later, hcalls, hp, fun hmem =>
        hlater (List.mem_append_left _ hmem)⟩
  · rintro (⟨before, started, later, rfl, hp, hlater⟩ | rfl)
    · refine ⟨before, started, later ++ [.startAlarm alarmId], by simp, hp, ?_⟩
      simpa using hlater
    · exact ⟨calls, alarmId, [], rfl, rfl, List.not_mem_nil⟩

theorem not_startedSinceReset_snoc_reset (calls : List MaskCall) :
    ¬StartedSinceReset (calls ++ [.resetAlarms]) p := by
  rintro ⟨before, started, later, heq, -, hlater⟩
  rcases List.eq_nil_or_concat' later with rfl | ⟨later, last, rfl⟩
  · obtain ⟨-, hlast⟩ := List.append_inj' heq rfl
    cases hlast
  · rw [← List.cons_append, ← List.append_assoc] at heq
    obtain ⟨-, hlast⟩ := List.append_inj' heq rfl
    cases hlast
    exact hlater (List.mem_append_right _ List.mem_cons_self)

theorem started_snoc_start (calls : List MaskCall) (alarmId : UInt8) :
    Started (calls ++ [.startAlarm alarmId]) p ↔ Started calls p ∨ p = alarmId.toNat := by
  simp only [Started, List.mem_append, List.mem_singleton, MaskCall.startAlarm.injEq, or_and_right,
    exists_or, exists_eq_left]
  exact or_congr_right eq_comm

theorem started_snoc_reset (calls : List MaskCall) :
    Started (calls ++ [.resetAlarms]) p ↔ Started calls p := by
  simp [Started]

theorem after_snoc (wordSize : Nat) (now : TimePoint) (calls : List MaskCall) (c : MaskCall) :
    after wordSize now (calls ++ [c]) = call wordSize (after wordSize now calls) c := by
  rw [after, after, List.foldl_append]
  rfl

/-- A bit that a reset reaches is that of an alarm started since, and any other stays. -/
theorem raised_after (wordSize : Nat) (now : TimePoint) (calls : List MaskCall) (hp : p < 64) :
    (after wordSize now calls).raised p = true ↔ p < honAlarmCount ∧
      if wordSize ≤ (alarmByte p).val then Started calls p else StartedSinceReset calls p := by
  induction calls using List.reverseRecOn with
  | nil =>
    refine iff_of_false (by rw [after, List.foldl_nil, raised_initial]; exact Bool.false_ne_true) ?_
    rintro ⟨-, h⟩
    split at h
    · obtain ⟨alarmId, hmem, -⟩ := h
      exact List.not_mem_nil hmem
    · obtain ⟨before, alarmId, later, heq, -⟩ := h
      exact absurd heq.symm (by simp)
  | append_singleton calls c ih =>
    rw [after_snoc]
    cases c with
    | startAlarm alarmId =>
      rw [startedSinceReset_snoc_start, started_snoc_start]
      by_cases hid : alarmId.toNat < honAlarmCount
      · rw [call, raised_startAlarm hp hid, ih]
        split <;> grind
      · rw [call, startAlarm_rejected (Nat.not_lt.mp hid), ih]
        split <;> grind
    | resetAlarms =>
      rw [call, raised_resetAlarms, ih, started_snoc_reset]
      split
      · next hout => rw [and_iff_left hout]
      · next hout =>
        exact iff_of_false (fun h => hout h.2) fun h => not_startedSinceReset_snoc_reset calls h.2

/-- A bit that a reset does not reach belongs to one of the alarms with the lowest numbers. -/
theorem le_alarmByte_iff (hp : p < 64) : wordSize ≤ (alarmByte p).val ↔ p < 8 * (8 - wordSize) := by
  show wordSize ≤ 8 - 1 - p / 8 ↔ _
  omega

theorem recorded_of_cleared {now : TimePoint} {calls : List MaskCall}
    (h : ∀ before alarmId later, calls = before ++ .startAlarm alarmId :: later →
      alarmId.toNat < honAlarmCount → alarmId.toNat < 8 * (8 - wordSize) →
        .resetAlarms ∉ later) :
    Recorded wordSize now calls := by
  have hmask : ∀ p < 64, (after wordSize now calls).raised p = true ↔
      p < honAlarmCount ∧ StartedSinceReset calls p := by
    intro p hp
    rw [raised_after wordSize now calls hp]
    refine and_congr_right (fun hcount => ?_)
    split
    · next hout =>
      rw [le_alarmByte_iff hp] at hout
      constructor
      · rintro ⟨alarmId, hmem, rfl⟩
        obtain ⟨before, later, rfl⟩ := List.append_of_mem hmem
        exact ⟨before, alarmId, later, rfl, rfl, h before alarmId later rfl hcount hout⟩
      · rintro ⟨before, alarmId, later, rfl, hid, -⟩
        exact ⟨alarmId, List.mem_append_right _ List.mem_cons_self, hid⟩
    · exact Iff.rfl
  refine ⟨hmask, fun alarmId hid => startAlarm_rejected hid _, fun hlast => ?_⟩
  obtain ⟨earlier, rfl⟩ := List.getLast?_eq_some_iff.mp hlast
  refine hasActiveAlarms_eq_false (fun p hp => ?_)
  rw [← Bool.not_eq_true, hmask p hp]
  exact fun hand => not_startedSinceReset_snoc_reset earlier hand.2

/-- On every platform, the mask is right in every state that the calls reach exactly if no reset
comes after the start of an alarm whose bit it does not reach. -/
theorem mask_recorded_iff (wordSize : Nat) (now : TimePoint) (calls : List MaskCall) :
    (∀ reached, reached <+: calls → Recorded wordSize now reached) ↔
      ∀ before alarmId later, calls = before ++ .startAlarm alarmId :: later →
        alarmId.toNat < honAlarmCount → alarmId.toNat < 8 * (8 - wordSize) →
          .resetAlarms ∉ later := by
  constructor
  · rintro hall before alarmId later rfl hid hout hreset
    obtain ⟨early, late, rfl⟩ := List.append_of_mem hreset
    have hp : alarmId.toNat < 64 := Nat.lt_trans hid (by decide)
    have hreached : before ++ .startAlarm alarmId :: early ++ [.resetAlarms] <+:
        before ++ .startAlarm alarmId :: (early ++ .resetAlarms :: late) := ⟨late, by simp⟩
    -- The alarm has been started, so its bit is set, but a reset was the last call.
    have hraised := (raised_after wordSize now
      (before ++ .startAlarm alarmId :: early ++ [.resetAlarms]) hp).mpr ⟨hid, by
        rw [if_pos ((le_alarmByte_iff hp).mpr hout)]
        exact ⟨alarmId, by simp, rfl⟩⟩
    exact not_startedSinceReset_snoc_reset _ (((hall _ hreached).mask _ hp).mp hraised).2
  · rintro hcleared reached ⟨rest, rfl⟩
    refine recorded_of_cleared (fun before alarmId later heq hid hout hreset => ?_)
    refine hcleared before alarmId (later ++ rest) ?_ hid hout (List.mem_append_left rest hreset)
    rw [heq, List.append_assoc, List.cons_append]

/-- With a word of four bytes the first alarm is still raised after a reset. -/
theorem reset_leaves_alarm :
    (after 4 0 [.startAlarm 0, .resetAlarms]).hasActiveAlarms = true ∧
      ¬∀ (wordSize : Nat) (now : TimePoint) (calls reached : List MaskCall),
        wordSize = 4 ∨ wordSize = 8 → reached <+: calls → Recorded wordSize now reached := by
  have hactive : (after 4 0 [.startAlarm 0, .resetAlarms]).hasActiveAlarms = true := by
    decide +kernel
  refine ⟨hactive, fun hall => ?_⟩
  have hrecorded := hall 4 0 [.startAlarm 0, .resetAlarms] _ (.inl rfl) List.prefix_rfl
  exact Bool.false_ne_true ((hrecorded.reset rfl).symm.trans hactive)

end Alarms

end HaierProtocol.Hon
