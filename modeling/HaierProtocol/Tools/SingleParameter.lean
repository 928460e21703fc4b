import HaierProtocol.Tools.HonHandlers

/-!
# Writing a single parameter

The switch of `process_single_parameter` has a condition for the value in each case but three, where
it looks at the number of the parameter instead.  These three take any value, and keep the bits
that their fields have room for (`singleParameter_exact_iff`).
-/

namespace HaierProtocol.Hon

open Exchange

namespace DataParameters

/-- The values that a parameter can have. -/
def InRange (p : DataParameters) (value : UInt16) : Prop :=
  match p with
  | setPoint => value ≤ 14
  | acMode => value ≤ 6
  | fanMode => (1 ≤ value ∧ value ≤ 3) ∨ value = 5
  | _ => value ≤ 1

/-- The parameters whose value is not looked at. -/
def Unguarded (p : DataParameters) : Prop := p = setPoint ∨ p = acMode ∨ p = fanMode

theorem code_of_ofCode? {parameter : UInt8} {p : DataParameters} (h : ofCode? parameter = some p) :
    parameter = p.code := by
  rw [ofCode?] at h
  have hfound := List.find?_some h
  exact (beq_iff_eq.mp hfound).symm

theorem accepts_code_iff (p : DataParameters) (value : UInt16) :
    p.accepts p.code value = true ↔ p.Unguarded ∨ p.InRange value := by
  cases p with
  | setPoint => exact iff_of_true rfl (.inl (.inl rfl))
  | acMode => exact iff_of_true rfl (.inl (.inr (.inl rfl)))
  | fanMode => exact iff_of_true rfl (.inl (.inr (.inr rfl)))
  | _ => simp [accepts, Unguarded, InRange]

/-- The values of a parameter fit its field. -/
theorem lt_of_inRange {p : DataParameters} {value : UInt16} (h : p.InRange value) :
    value.toNat < 2 ^ p.field.width := by
  cases p with
  | setPoint =>
    exact Nat.lt_of_le_of_lt (UInt16.le_iff_toNat_le.mp h) (show 14 < 2 ^ 8 by decide)
  | acMode =>
    exact Nat.lt_of_le_of_lt (UInt16.le_iff_toNat_le.mp h) (show 6 < 2 ^ 3 by decide)
  | fanMode =>
    rcases h with h | h
    · exact Nat.lt_of_le_of_lt (UInt16.le_iff_toNat_le.mp h.2) (show 3 < 2 ^ 3 by decide)
    · rw [h]
      decide
  | _ => exact Nat.lt_of_le_of_lt (UInt16.le_iff_toNat_le.mp h) (show 1 < 2 ^ 1 by decide)

end DataParameters

/-- The payload of a message that sets a parameter. -/
def received (parameter : UInt8) (value : UInt16) : Nat → UInt8 :=
  fun i => [0x5D, parameter, (value >>> 8).toUInt8, value.toUInt8].getD i 0

/-- What the message does, and the result. -/
def outcome (s : Emulator) (parameter : UInt8) (value : UInt16) :
    HandlerError × Trace Emulator Answer :=
  (statusRequestHandler typeControl (received parameter value) 4).run { state := s }

/-- What a write has to do: exactly what it says where the value is one of the parameter, and
otherwise nothing. -/
structure WritesExactly (s : Emulator) (parameter : UInt8) (value : UInt16) : Prop where
  inRange : ∀ p, DataParameters.ofCode? parameter = some p → p.InRange value →
    (p.field.get (outcome s parameter value).2.state.acStatus).toNat = value.toNat ∧
    (∀ i j, j < 8 → ¬p.field.Covers i j →
      BitField.bitAt (outcome s parameter value).2.state.acStatus i j =
        BitField.bitAt s.acStatus i j) ∧
    (outcome s parameter value).2.answers =
      [(statusMessage 0x6D01 userDataSize (outcome s parameter value).2.state, none)]
  otherwise : (∀ p, DataParameters.ofCode? parameter = some p → ¬p.InRange value) →
    (outcome s parameter value).2.state.acStatus = s.acStatus ∧
    (outcome s parameter value).2.answers = [(invalidMsg, none)] ∧
    (outcome s parameter value).1 ≠ .handlerOk

/-! ## The way to the switch -/

theorem subcommand_eq (parameter : UInt8) :
    let subcommand : UInt16 := ((0x5D : UInt8).toUInt16 <<< 8) ||| parameter.toUInt16
    subcommand ≠ getUserData ∧ subcommand ≠ getBigData ∧ subcommand ≠ setGroupParameters ∧
      subcommand &&& 0xFF00 = setSingleParameter := by
  have hall : ∀ i : Fin 256,
      let subcommand : UInt16 := ((0x5D : UInt8).toUInt16 <<< 8) ||| (UInt8.ofNat i.val).toUInt16
      subcommand ≠ getUserData ∧ subcommand ≠ getBigData ∧ subcommand ≠ setGroupParameters ∧
        subcommand &&& 0xFF00 = setSingleParameter := by decide +kernel
  have hparameter := hall ⟨parameter.toNat, parameter.toNat_lt⟩
  rwa [UInt8.ofNat_toNat] at hparameter

theorem value_eq (value : UInt16) :
    ((value >>> 8).toUInt8.toUInt16 <<< 8) + value.toUInt8.toUInt16 = value := by
  refine UInt16.toNat.inj ?_
  have hlt := value.toNat_lt
  simp only [UInt16.toNat_add, UInt16.toNat_shiftLeft, UInt8.toNat_toUInt16, UInt16.toNat_toUInt8,
    UInt16.toNat_shiftRight, Nat.shiftLeft_eq, Nat.shiftRight_eq_div_pow]
  show (value.toNat / 256 % 256 * 256 % 65536 + value.toNat % 256) % 65536 = value.toNat
  omega

theorem run_setSingleParameter (s : Emulator) (buffer : Nat → UInt8) (h : buffer 0 = 0x5D) :
    (statusRequestHandler typeControl buffer 4).run { state := s } =
      (processSingleParameter (buffer 1) (((buffer 2).toUInt16 <<< 8) + (buffer 3).toUInt16)).run
        { state := s, reads := [0, 1, 1, 2, 3] } := by
  obtain ⟨huser, hbig, hgroup, hsingle⟩ := subcommand_eq (buffer 1)
  have hlong : ¬4 < 2 := by decide
  have hfour : ¬4 ≠ 4 := by decide
  rw [statusRequestHandler, if_pos rfl, if_neg hlong, run_bind, run_read, run_bind, run_read]
  dsimp only
  rw [h, if_neg huser, if_neg hbig, if_neg hgroup, if_pos hsingle, if_neg hfour, run_bind, run_read,
    run_bind, run_read, run_bind, run_read]
  rfl

theorem outcome_eq (s : Emulator) (parameter : UInt8) (value : UInt16) :
    outcome s parameter value =
      (processSingleParameter parameter value).run { state := s, reads := [0, 1, 1, 2, 3] } := by
  have hrun := run_setSingleParameter s (received parameter value) rfl
  have hvalue : ((received parameter value 2).toUInt16 <<< 8) +
      (received parameter value 3).toUInt16 = value := value_eq value
  rwa [hvalue] at hrun

/-! ## The switch -/

/-- The status after an accepted write. -/
def written (s : Emulator) (p : DataParameters) (value : UInt16) : HvacFullStatus :=
  if (p.field.get s.acStatus).toNat ≠ value.toNat then p.field.put s.acStatus value.toNat
  else s.acStatus

theorem run_setIfDifferent (t : Trace Emulator Answer) (p : DataParameters) (value : UInt16) :
    (setIfDifferent value p.field).run t =
      ((), { t with state := { t.state with acStatus := written t.state p value } }) := by
  rw [setIfDifferent, run_bind, run_getState, written]
  dsimp only
  split
  · rfl
  · rfl

variable {s : Emulator} {parameter : UInt8} {value : UInt16} {p : DataParameters}

theorem outcome_accepted (hp : DataParameters.ofCode? parameter = some p)
    (h : p.accepts parameter value = true) :
    outcome s parameter value =
      (.handlerOk,
        { state := { s with acStatus := written s p value }
          reads := [0, 1, 1, 2, 3]
          answers := [(statusMessage 0x6D01 userDataSize
            { s with acStatus := written s p value }, none)] }) := by
  rw [outcome_eq, processSingleParameter, hp]
  dsimp only
  rw [if_pos h, run_bind, run_setIfDifferent]
  rfl

theorem outcome_refused (h : ∀ p, DataParameters.ofCode? parameter = some p →
      ¬p.accepts parameter value = true) :
    ∃ error, error ≠ HandlerError.handlerOk ∧ outcome s parameter value =
      (error, { state := s, reads := [0, 1, 1, 2, 3], answers := [(invalidMsg, none)] }) := by
  rw [outcome_eq, processSingleParameter]
  cases hp : DataParameters.ofCode? parameter with
  | none => exact ⟨.unsupportedSubcommand, by decide, rfl⟩
  | some p =>
    dsimp only
    rw [if_neg (h p hp)]
    exact ⟨.unsupportedMessage, by decide, rfl⟩

theorem toNat_get_written (h : p.InRange value) :
    (p.field.get (written s p value)).toNat = value.toNat := by
  rw [written]
  split
  · exact BitField.toNat_get_put _ _ (DataParameters.lt_of_inRange h)
  · next hsame => exact not_not.mp hsame

theorem bitAt_written (i : Fin bigDataSize) {j : Nat} (hj : j < 8) (h : ¬p.field.Covers i j) :
    BitField.bitAt (written s p value) i j = BitField.bitAt s.acStatus i j := by
  rw [written]
  split
  · rw [BitField.bitAt_put _ _ _ _ hj, if_neg h]
  · rfl

/-- A write is exact unless the parameter is one of the three and the value is not one of it. -/
theorem singleParameter_exact_iff (s : Emulator) (parameter : UInt8) (value : UInt16) :
    WritesExactly s parameter value ↔
      ∀ p, DataParameters.ofCode? parameter = some p → p.Unguarded → p.InRange value := by
  constructor
  · intro hexact p hp hunguarded
    by_contra hout
    have hcode := DataParameters.code_of_ofCode? hp
    have haccepts : p.accepts parameter value = true := by
      rw [hcode, DataParameters.accepts_code_iff]
      exact .inl hunguarded
    refine (hexact.otherwise fun q hq => ?_).2.2 ?_
    · rw [← Option.some_inj.mp (hp.symm.trans hq)]
      exact hout
    · rw [outcome_accepted hp haccepts]
  · intro hguarded
    have haccepts : ∀ p, DataParameters.ofCode? parameter = some p →
        (p.accepts parameter value = true ↔ p.InRange value) := by
      intro p hp
      rw [DataParameters.code_of_ofCode? hp, DataParameters.accepts_code_iff]
      exact or_iff_right_of_imp (hguarded p hp)
    refine ⟨fun p hp hin => ?_, fun hout => ?_⟩
    · rw [outcome_accepted hp ((haccepts p hp).mpr hin)]
      exact ⟨toNat_get_written hin, fun i j hj hcovers => bitAt_written i hj hcovers, rfl⟩
    · obtain ⟨error, herror, houtcome⟩ :=
        outcome_refused (s := s) fun p hp h => hout p hp ((haccepts p hp).mp h)
      rw [houtcome]
      exact ⟨rfl, rfl, herror⟩

/-- A temperature of 272 is taken, and 16 of it kept. -/
theorem setPoint_truncated :
    let s : Emulator := ⟨.replicate bigDataSize 0, false, 0xFF, .initial 0⟩
    (outcome s 0x02 272).1 = .handlerOk ∧
      (DataParameters.setPoint.field.get (outcome s 0x02 272).2.state.acStatus).toNat = 16 ∧
      ¬∀ (s : Emulator) (parameter : UInt8) (value : UInt16), WritesExactly s parameter value := by
  intro s
  have hok : (outcome s 0x02 272).1 = .handlerOk := by decide +kernel
  refine ⟨hok, by decide +kernel, fun hall => ?_⟩
  refine ((hall s 0x02 272).otherwise fun p hp hin => ?_).2.2 hok
  have hset : some DataParameters.setPoint = some p := hp
  rw [← Option.some_inj.mp hset] at hin
  exact absurd hin (show ¬(272 : UInt16) ≤ 14 by decide)

end HaierProtocol.Hon
