import Net2Modbus.Enumeration

/-!
# Verifying a device of the 1-Wire bus

`OWVerify` searches with the mark behind the last bit, so that the search follows the
code in `ROM_NO` to its end as long as a device has it. Two valid codes differ before
their last bit, so that the mark itself decides nothing. The searches behind the call
find what they would have found without it.
-/
namespace Net2Modbus
open WordSearch

/-- Valid codes that agree in all bits but the last are one code: the first 56 bits give the
    last byte. -/
theorem RomValid.sole {r r' : Rom} (valid : RomValid r) (valid' : RomValid r')
    (same : (romBits r).take 63 = (romBits r').take 63) : r = r' := by
  have front : (romBits r).take 56 = (romBits r').take 56 := by
    have cut := congrArg (List.take 56) same
    rwa [List.take_take,List.take_take] at cut
  have checksum : r.peek 7 = r'.peek 7 := by rw [valid.1,valid'.1,front]
  refine romBits_inj (List.ext_getElem (by simp) ?_)
  intro i low high
  have small : i < 64 := by simpa using low
  by_cases last : i = 63
  · subst last
    simp [romBits,romBit,checksum]
  · have at_ := congrArg (·[i]?) same
    simpa [List.getElem?_take,show i < 63 by omega,low,high] using at_
/-- The search for the code in `ROM_NO` finds it exactly when a device has it. -/
theorem descend_rom_iff {devices : List Rom} (nonempty : devices ≠ []) (valid : ∀ r ∈ devices, RomValid r) (rom : Rom) :
    descend 64 (devices.map romBits) (romBits rom) 64 = romBits rom ↔ rom ∈ devices := by
  have inj : Function.Injective romBits := fun _ _ => romBits_inj
  constructor
  · intro same
    have member : descend 64 (devices.map romBits) (romBits rom) 64 ∈ devices.map romBits :=
      descend_mem (allBits devices) (by simpa using nonempty)
    rw [same] at member
    exact (List.mem_map_of_injective inj).mp member
  · intro member
    refine descend_again (allBits devices) (List.mem_map_of_mem member) ?_
    intro w other front
    obtain ⟨r,member',rfl⟩ := List.mem_map.mp other
    rw [(valid r member').sole (valid rom member) front]

/-- The state with which `OWVerify` searches. -/
def OwState.verifying (s : OwState) : OwState := { s with lastDiscrepancy := 64, lastDeviceFlag := false }

theorem owVerify_verdict (bus : OneWire) (s : OwState) :
    (owVerify bus s).2.2 = ((owSearch bus s.verifying).2.2 && (owSearch bus s.verifying).2.1.romNo == s.romNo) := rfl
theorem owVerify_iff {bus : OneWire} (nonempty : bus.devices ≠ []) (valid : ∀ r ∈ bus.devices, RomValid r) (s : OwState) :
    (owVerify bus s).2.2 = true ↔ s.romNo ∈ bus.devices := by
  have search := @owSearch_found bus s.verifying nonempty valid rfl
  rw [owVerify_verdict,search.success,Bool.true_and,beq_iff_eq,← descend_rom_iff nonempty valid]
  constructor
  · intro same
    exact search.bits.symm.trans (congrArg romBits same)
  · intro same
    exact romBits_inj (search.bits.trans same)

/-- Search states that differ at most in the checksum, which is only used inside a search. -/
structure OwState.Alike (s s' : OwState) : Prop where
  rom : s'.romNo = s.romNo
  discrepancy : s'.lastDiscrepancy = s.lastDiscrepancy
  family : s'.lastFamilyDiscrepancy = s.lastFamilyDiscrepancy
  flag : s'.lastDeviceFlag = s.lastDeviceFlag

/-- States from which the same calls do the same: a reset ends what the bus was doing. -/
structure OwMaster.Alike (m m' : OwMaster) : Prop where
  devices : m'.bus.devices = m.bus.devices
  state : m.state.Alike m'.state

theorem owSearch_alike {bus bus' : OneWire} {s s' : OwState} (devices : bus'.devices = bus.devices) (alike : s.Alike s') :
    (owSearch bus' s').2 = (owSearch bus s).2 ∧ (owSearch bus' s').1.devices = (owSearch bus s).1.devices := by
  have started : owWriteByte searchRom (owReset bus').1 = owWriteByte searchRom (owReset bus).1 := by
    simp [owWriteByte,owReset,devices]
  have present : (owReset bus').2 = (owReset bus).2 := by simp [owReset,devices]
  unfold owSearch
  dsimp only
  rw [alike.rom,alike.discrepancy,alike.family,alike.flag,present,started]
  split
  · exact ⟨rfl,devices⟩
  · split
    · exact ⟨rfl,rfl⟩
    · exact ⟨rfl,devices⟩
theorem searched_alike {bus bus' : OneWire} {s s' : OwState} (devices : bus'.devices = bus.devices) (alike : s.Alike s') :
    (OwMaster.searched (owSearch bus' s')).2 = (OwMaster.searched (owSearch bus s)).2 ∧
      (OwMaster.searched (owSearch bus s)).1.Alike (OwMaster.searched (owSearch bus' s')).1 := by
  obtain ⟨same,kept⟩ := owSearch_alike devices alike
  unfold OwMaster.searched
  rw [same]
  exact ⟨rfl,kept,rfl,rfl,rfl,rfl⟩
/-- One call does the same from states that are alike. -/
theorem OwMaster.Alike.step {m m' : OwMaster} (alike : m.Alike m') (c : OwCall) :
    (oneWire.step m' c).2 = (oneWire.step m c).2 ∧ (oneWire.step m c).1.Alike (oneWire.step m' c).1 := by
  obtain ⟨devices,state⟩ := alike
  cases c with
  | owFirst => exact searched_alike devices ⟨state.rom,rfl,rfl,rfl⟩
  | owNext => exact searched_alike devices state
  | owSearch => exact searched_alike devices state
  | owVerify =>
    have verifying : m.state.verifying.Alike m'.state.verifying := ⟨state.rom,rfl,state.family,rfl⟩
    obtain ⟨same,kept⟩ := owSearch_alike devices verifying
    have verdict : (owVerify m'.bus m'.state).2.2 = (owVerify m.bus m.state).2.2 := by
      rw [owVerify_verdict,owVerify_verdict,same,state.rom]
    exact ⟨congrArg (fun present => [OwEvent.verified present]) verdict,kept,state.rom,state.discrepancy,state.family,
      state.flag⟩
  | store rom => exact ⟨rfl,devices,rfl,state.discrepancy,state.family,state.flag⟩
theorem OwMaster.Alike.trace {m m' : OwMaster} (alike : m.Alike m') (calls : List OwCall) :
    oneWire.trace m' calls = oneWire.trace m calls := by
  induction calls generalizing m m' with
  | nil => rfl
  | cons c calls ih =>
    obtain ⟨same,later⟩ := alike.step c
    rw [Machine.trace_cons,Machine.trace_cons,same,ih later]

theorem owVerify_alike {m : OwMaster} (nonempty : m.bus.devices ≠ []) (valid : ∀ r ∈ m.bus.devices, RomValid r) :
    m.Alike (oneWire.step m .owVerify).1 := by
  have search := @owSearch_found m.bus m.state.verifying nonempty valid rfl
  exact ⟨search.devices,rfl,rfl,rfl,rfl⟩
/-- No call changes the bus. -/
theorem oneWire_devices {m : OwMaster} (nonempty : m.bus.devices ≠ []) (valid : ∀ r ∈ m.bus.devices, RomValid r)
    (c : OwCall) : (oneWire.step m c).1.bus.devices = m.bus.devices := by
  have search (s : OwState) : (owSearch m.bus s).1.devices = m.bus.devices := by
    by_cases last : s.lastDeviceFlag = true
    · simp [owSearch,last]
    · exact (owSearch_found nonempty valid (Bool.eq_false_of_not_eq_true last)).devices
  cases c with
  | owFirst => exact search m.state.restart
  | owNext => exact search m.state
  | owSearch => exact search m.state
  | owVerify => exact (owVerify_alike nonempty valid).devices
  | store rom => rfl

/-- Whatever searches were made and whatever was stored before, `OWVerify` says whether the
    code in `ROM_NO` is on the bus, leaves the search state as it was, and every call behind
    it does what it would have done without it. -/
theorem ow_verify (devices : List Rom) (nonempty : devices ≠ []) (valid : ∀ r ∈ devices, RomValid r) (start : OwMaster)
    (bus : start.bus.devices = devices) (calls : List OwCall) :
    let m := oneWire.after start calls
    let verified := owVerify m.bus m.state
    (verified.2.2 = true ↔ m.state.romNo ∈ devices) ∧
      verified.2.1.romNo = m.state.romNo ∧
      verified.2.1.lastDiscrepancy = m.state.lastDiscrepancy ∧
      verified.2.1.lastDeviceFlag = m.state.lastDeviceFlag ∧
      verified.2.1.lastFamilyDiscrepancy = m.state.lastFamilyDiscrepancy ∧
      ∀ later, oneWire.trace (oneWire.step m .owVerify).1 later = oneWire.trace m later := by
  have kept : (oneWire.after start calls).bus.devices = devices :=
    Machine.invariant_run (m := oneWire) (R := fun m => m.bus.devices = devices) (P := fun _ _ => True)
      (fun m c held _ => (oneWire_devices (held ▸ nonempty) (held ▸ valid) c).trans held) bus
      (Machine.each_of_forall fun _ _ => trivial)
  intro m verified
  have nonempty' : m.bus.devices ≠ [] := kept ▸ nonempty
  have valid' : ∀ r ∈ m.bus.devices, RomValid r := kept ▸ valid
  refine ⟨?_,rfl,rfl,rfl,rfl,?_⟩
  · rw [owVerify_iff nonempty' valid' m.state,kept]
  · intro later
    exact (owVerify_alike nonempty' valid').trace later
/-- A serial number that is on the bus, in the middle of an enumeration. -/
theorem ow_verify_present :
    let devices : List Rom := [⟨[0x28,1,2,3,4,5,7,192],rfl⟩,⟨[0x28,1,2,3,4,5,6,158],rfl⟩]
    let start : OwMaster := ⟨⟨devices,[],0,false⟩,⟨.fill 0,0,0,false,0⟩⟩
    let m := oneWire.after start [.owFirst,.store ⟨[0x28,1,2,3,4,5,6,158],rfl⟩]
    (owVerify m.bus m.state).2.2 = true :=
  (ow_verify [⟨[0x28,1,2,3,4,5,7,192],rfl⟩,⟨[0x28,1,2,3,4,5,6,158],rfl⟩] (by decide) (by decide +kernel)
    ⟨⟨[⟨[0x28,1,2,3,4,5,7,192],rfl⟩,⟨[0x28,1,2,3,4,5,6,158],rfl⟩],[],0,false⟩,⟨.fill 0,0,0,false,0⟩⟩ rfl
    [.owFirst,.store ⟨[0x28,1,2,3,4,5,6,158],rfl⟩]).1.mpr (List.mem_cons_of_mem _ List.mem_cons_self)

end Net2Modbus
