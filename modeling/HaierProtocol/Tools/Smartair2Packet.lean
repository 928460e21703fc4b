import HaierProtocol.Lib.Fields
import HaierProtocol.Tools.ShortCycle
import HaierProtocol.Tools.Smartair2Server

/-!
# The packet of the SmartAir2 simulator

`HaierPacketControl` as it lies in memory: `store` writes the fields into the bytes, and `control`
reads them.  The device owns three fields (`deviceFields`), all others belong to its clients.
-/

namespace HaierProtocol.Smartair2

open BitField Simulator

namespace AcStatus

/-- The fields of the packet, with their values. -/
def fields (state : HaierPacketControl) : List (BitField controlSize × Nat) :=
  [(byteField roomTemperature, state.roomTemperature.toNat),
    (byteField roomHumidity, state.roomHumidity.toNat),
    (byteField 11, state.acMode.toNat), (byteField 13, state.fanMode.toNat),
    (byteField 15, state.swingBoth.toNat), (bitField 17 0, state.acPower.toNat),
    (bitField 17 4, state.compressor.toNat), (bitField 19 0, state.useSwingBits.toNat),
    (bitField 19 1, state.turboMode.toNat), (bitField 19 2, state.quietMode.toNat),
    (bitField 19 3, state.horizontalSwing.toNat), (bitField 19 4, state.verticalSwing.toNat),
    (bitField 19 5, state.displayStatus.toNat), (byteField 23, state.setPoint.toNat)]

/-- Where the fields are. -/
def layout : List (BitField controlSize) :=
  [byteField roomTemperature, byteField roomHumidity, byteField 11, byteField 13, byteField 15,
    bitField 17 0, bitField 17 4, bitField 19 0, bitField 19 1, bitField 19 2, bitField 19 3,
    bitField 19 4, bitField 19 5, byteField 23]

theorem map_fields (state : HaierPacketControl) : (fields state).map Prod.fst = layout := rfl

theorem layout_apart : layout.Pairwise Apart := by decide

/-- Assign the fields. -/
def store (bytes : AcStatus) (state : HaierPacketControl) : AcStatus := putAll (fields state) bytes

/-! ## Reading what is stored -/

variable {bytes bytes' : AcStatus} {state state' : HaierPacketControl}

theorem bitAt_store (bytes : AcStatus) {f : BitField controlSize} {i : Fin controlSize}
    {j value : Nat} (hj : j < 8) (hmem : (f, value) ∈ fields state) (hcovers : f.Covers i j) :
    bitAt (store bytes state) i j = value.testBit (j - f.offset) :=
  bitAt_putAll_of_mem hj (map_fields state ▸ layout_apart) hmem hcovers

theorem getElem_store {i : Fin controlSize} {value : UInt8}
    (hmem : (byteField i, value.toNat) ∈ fields state) :
    getElem (store bytes state) i i.isLt = value := by
  refine getElem_eq_of_bits fun j hj => ?_
  have hbit := bitAt_store bytes hj hmem ⟨rfl, Nat.zero_le j, by
    show j < 0 + 8
    omega⟩
  exact hbit

theorem testBit_toNat (value : Bool) : value.toNat.testBit 0 = value := by
  cases value <;> rfl

theorem flag_store (i : Fin controlSize) (j : Fin 8) {value : Bool}
    (hmem : (bitField i j, value.toNat) ∈ fields state) :
    flag (store bytes state) i j = value := by
  have hbit := bitAt_store bytes j.isLt hmem ⟨rfl, Nat.le_refl _, Nat.lt_succ_self _⟩
  rw [show j.val - (bitField i j).offset = 0 from Nat.sub_self _, testBit_toNat] at hbit
  exact hbit

theorem mem_fields (k : Nat) {x : BitField controlSize × Nat}
    (h : (fields state)[k]? = some x) : x ∈ fields state := List.mem_of_getElem? h

/-- The fields are read back. -/
theorem control_store (bytes : AcStatus) (state : HaierPacketControl) :
    control (store bytes state) = state := by
  have h₁ : (store bytes state)[roomTemperature] = state.roomTemperature :=
    getElem_store (mem_fields 0 rfl)
  have h₃ : (store bytes state)[roomHumidity] = state.roomHumidity :=
    getElem_store (mem_fields 1 rfl)
  have h₁₁ : (store bytes state)[(11 : Fin controlSize)] = state.acMode :=
    getElem_store (mem_fields 2 rfl)
  have h₁₃ : (store bytes state)[(13 : Fin controlSize)] = state.fanMode :=
    getElem_store (mem_fields 3 rfl)
  have h₁₅ : (store bytes state)[(15 : Fin controlSize)] = state.swingBoth :=
    getElem_store (mem_fields 4 rfl)
  have h₂₃ : (store bytes state)[(23 : Fin controlSize)] = state.setPoint :=
    getElem_store (mem_fields 13 rfl)
  have hpower : flag (store bytes state) 17 0 = state.acPower := flag_store 17 0 (mem_fields 5 rfl)
  have hcompressor : flag (store bytes state) 17 4 = state.compressor :=
    flag_store 17 4 (mem_fields 6 rfl)
  have hswing : flag (store bytes state) 19 0 = state.useSwingBits :=
    flag_store 19 0 (mem_fields 7 rfl)
  have hturbo : flag (store bytes state) 19 1 = state.turboMode :=
    flag_store 19 1 (mem_fields 8 rfl)
  have hquiet : flag (store bytes state) 19 2 = state.quietMode :=
    flag_store 19 2 (mem_fields 9 rfl)
  have hhorizontal : flag (store bytes state) 19 3 = state.horizontalSwing :=
    flag_store 19 3 (mem_fields 10 rfl)
  have hvertical : flag (store bytes state) 19 4 = state.verticalSwing :=
    flag_store 19 4 (mem_fields 11 rfl)
  have hdisplay : flag (store bytes state) 19 5 = state.displayStatus :=
    flag_store 19 5 (mem_fields 12 rfl)
  rw [control, h₁, h₃, h₁₁, h₁₃, h₁₅, h₂₃, hpower, hcompressor, hswing, hturbo, hquiet,
    hhorizontal, hvertical, hdisplay]

/-- A field of the packet is what the packet shows of it. -/
theorem bitAt_of_mem {x : BitField controlSize × Nat} (hmem : x ∈ fields (control bytes))
    {i : Fin controlSize} {j : Nat} (hcovers : x.1.Covers i j) :
    bitAt bytes i j = x.2.testBit (j - x.1.offset) := by
  have hbyte : ∀ k : Fin controlSize, (byteField k).Covers i j →
      bitAt bytes i j = bytes[k].toNat.testBit (j - 0) := by
    rintro k ⟨rfl, -, -⟩
    rfl
  have hbit : ∀ (k : Fin controlSize) (l : Fin 8), (bitField k l).Covers i j →
      bitAt bytes i j = (flag bytes k l).toNat.testBit (j - l) := by
    rintro k l ⟨rfl, hlow, hhigh⟩
    have hj : j = l := Nat.le_antisymm (Nat.lt_succ_iff.mp hhigh) hlow
    rw [hj, Nat.sub_self, testBit_toNat, flag]
  have hall : ∀ x ∈ fields (control bytes), x.1.Covers i j →
      bitAt bytes i j = x.2.testBit (j - x.1.offset) := by
    simp only [fields, List.forall_mem_cons]
    exact ⟨hbyte roomTemperature, hbyte roomHumidity, hbyte 11, hbyte 13, hbyte 15, hbit 17 0,
      hbit 17 4, hbit 19 0, hbit 19 1, hbit 19 2, hbit 19 3, hbit 19 4, hbit 19 5, hbyte 23,
      fun _ h => absurd h List.not_mem_nil⟩
  exact hall x hmem hcovers

/-! ## What the device owns -/

def compressor : BitField controlSize := bitField 17 4

def deviceFields : List (BitField controlSize) :=
  [byteField roomTemperature, byteField roomHumidity, compressor]

/-- The bytes tell their readers the same, up to what the device owns. -/
abbrev Agree (bytes bytes' : AcStatus) : Prop := AgreeOutside deviceFields bytes bytes'

theorem Agree.sameCommands (h : Agree bytes bytes') :
    SameCommands (control bytes) (control bytes') := by
  have hbyte : ∀ i : Fin controlSize, (∀ f ∈ deviceFields, f.byte ≠ i) → bytes'[i] = bytes[i] :=
    fun i hi => (h.getElem_eq hi).symm
  have hbit : ∀ (i : Fin controlSize) (j : Nat), j < 8 → ¬Within deviceFields i j →
      flag bytes' i j = flag bytes i j := fun i j hj hout => (h i j hj hout).symm
  refine ⟨(control bytes').roomTemperature, (control bytes').roomHumidity,
    (control bytes').compressor, ?_⟩
  rw [control, hbyte 11 (by decide), hbyte 13 (by decide), hbyte 15 (by decide),
    hbyte 23 (by decide), hbit 17 0 (by decide) (by decide), hbit 19 0 (by decide) (by decide),
    hbit 19 1 (by decide) (by decide), hbit 19 2 (by decide) (by decide),
    hbit 19 3 (by decide) (by decide), hbit 19 4 (by decide) (by decide),
    hbit 19 5 (by decide) (by decide)]
  rfl

/-- A field that is not the device's is the same in both. -/
theorem mem_fields_of_sameCommands (h : SameCommands state state') :
    ∀ x ∈ fields state, x.1 ∈ deviceFields ∨ x ∈ fields state' := by
  obtain ⟨room, humidity, running, rfl⟩ := h
  simp only [fields, List.forall_mem_cons]
  have hmem : ∀ {l : List (BitField controlSize × Nat)} (k : Nat) {x},
      l[k]? = some x → x ∈ l := fun _ _ h => List.mem_of_getElem? h
  exact ⟨.inl (by decide), .inl (by decide), .inr (hmem 2 rfl), .inr (hmem 3 rfl),
    .inr (hmem 4 rfl), .inr (hmem 5 rfl), .inl (by decide), .inr (hmem 7 rfl),
    .inr (hmem 8 rfl), .inr (hmem 9 rfl), .inr (hmem 10 rfl), .inr (hmem 11 rfl),
    .inr (hmem 12 rfl), .inr (hmem 13 rfl), fun _ h => absurd h List.not_mem_nil⟩

/-- Two packets agree if they show the same commands, and are the same between the fields. -/
theorem agree_of_sameCommands (hbetween : AgreeOutside layout bytes bytes')
    (h : SameCommands (control bytes) (control bytes')) : Agree bytes bytes' := by
  intro i j hj hout
  by_cases hwithin : Within layout i j
  · obtain ⟨f, hf, hcovers⟩ := hwithin
    obtain ⟨x, hx, rfl⟩ := List.mem_map.mp (map_fields (control bytes) ▸ hf)
    rcases mem_fields_of_sameCommands h x hx with howned | hx'
    · exact absurd ⟨x.1, howned, hcovers⟩ hout
    · rw [bitAt_of_mem hx hcovers, bitAt_of_mem hx' hcovers]
  · exact hbetween i j hj hwithin

theorem deviceFields_subset : ∀ f ∈ deviceFields, f ∈ layout := by decide

theorem store_between (bytes : AcStatus) (state : HaierPacketControl) :
    AgreeOutside layout (store bytes state) bytes :=
  agreeOutside_putAll (fun _ hx => map_fields state ▸ List.mem_map_of_mem hx) bytes

/-- Storing the same commands in packets that are the same between the fields makes them agree. -/
theorem agree_store (hbetween : AgreeOutside layout bytes bytes')
    (h : SameCommands state (control bytes')) : Agree (store bytes state) bytes' := by
  refine agree_of_sameCommands ((store_between bytes state).trans hbetween) ?_
  rw [control_store]
  exact h

end AcStatus
end HaierProtocol.Smartair2
