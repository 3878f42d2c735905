import DoubleSwap.Qemu.Slots
import DoubleSwap.Data.KeyedLog
import DoubleSwap.Transition.Runs

/-! The slot log determines the live slots. The abstract state is a partial map
from guest addresses to host mappings; the slot array lists its pairs and the
log replays to it, after every call to the kernel. -/
namespace Qemu

open KeyedLog Transition

/-- A mapping: the host address and the size. -/
abbrev Mapping := UInt64 × UInt64

/-- The pair of the abstract map that a live slot stands for. -/
def KVMSlot.pair (slot : KVMSlot) : Option (UInt64 × Mapping) :=
  if slot.memorySize = 0 then none else some (slot.startAddr, (slot.ram, slot.memorySize))

def livePairs (slots : List KVMSlot) : List (UInt64 × Mapping) := slots.filterMap KVMSlot.pair

/-- The assignment that a line of the log stands for. -/
def SlotRecord.entry (r : SlotRecord) : UInt64 × Option Mapping :=
  (r.guestPhysAddr, if r.memorySize = 0 then none else some (r.userspaceAddr, r.memorySize))

/-- The slot operations of the run so far. The mark tells a registration from
a removal or a change of flags. -/
def operations (kml : KVMMemoryListener) : List (Marked UInt64 Mapping) :=
  kml.printed.map fun line => (line.1.entry, line.2)

/-- The map that the log leads to. -/
def logged (kml : KVMMemoryListener) : UInt64 → Option Mapping :=
  replay (kml.hgfile.map SlotRecord.entry)

structure SlotLog (kml : KVMMemoryListener) : Prop where
  hgfile_eq : kml.hgfile = kml.printed.map Prod.fst
  legal : LegalLog (operations kml)
  represents : Represents (livePairs kml.slots) (logged kml)

/-- The file has one entry for each operation on the slots. -/
theorem map_fst_operations {kml : KVMMemoryListener} (h : SlotLog kml) :
    (operations kml).map Prod.fst = kml.hgfile.map SlotRecord.entry := by
  rw [h.hgfile_eq, operations, List.map_map, List.map_map]
  rfl

theorem livePairs_split (before after : List KVMSlot) (slot : KVMSlot) :
    livePairs (before ++ slot :: after) =
      livePairs before ++ (slot.pair.toList ++ livePairs after) := by
  rw [livePairs, List.filterMap_append, List.filterMap_cons]
  cases slot.pair with
  | none => rfl
  | some pair => rfl

/-- The slot that is found splits the array. -/
theorem findSlot_some {test : KVMSlot → Bool} {slots : List KVMSlot} {i : Nat} {slot : KVMSlot}
    (h : findSlot test slots = some (i, slot)) :
    ∃ before after, slots = before ++ slot :: after ∧ before.length = i ∧ test slot = true := by
  induction slots generalizing i with
  | nil => cases h
  | cons first slots ih =>
      rw [findSlot] at h
      by_cases hTest : test first = true
      · rw [if_pos hTest] at h
        cases h
        exact ⟨[], slots, rfl, rfl, hTest⟩
      · rw [if_neg hTest] at h
        obtain ⟨⟨j, found⟩, hRest, hPair⟩ := Option.map_eq_some_iff.mp h
        cases hPair
        obtain ⟨before, after, hSplit, hLength, hFound⟩ := ih hRest
        exact ⟨first :: before, after, by rw [hSplit]; rfl, by rw [← hLength]; rfl, hFound⟩

theorem livePairs_register (nrSlots : Nat) : livePairs (List.replicate nrSlots .unused) = [] := by
  rw [livePairs, List.filterMap_eq_nil_iff]
  intro slot hSlot
  rw [List.eq_of_mem_replicate hSlot]
  rfl

/-- A listener that was just registered has no slot and an empty file. -/
theorem SlotLog.register (nrSlots : Nat) : SlotLog (KVMMemoryListener.register nrSlots) where
  hgfile_eq := rfl
  legal := LegalLog.nil
  represents := by
    rw [KVMMemoryListener.register, livePairs_register]
    exact Represents.nil

section Write

variable {kml : KVMMemoryListener} {before after : List KVMSlot} {old slot : KVMSlot} {new : Bool}

/-- One slot of the array is replaced. -/
theorem slots_kvmSetUserMemoryRegion (hSlots : kml.slots = before ++ old :: after) :
    (kvmSetUserMemoryRegion kml before.length slot new).slots =
      before ++ { slot with oldFlags := slot.flags } :: after := by
  simp [kvmSetUserMemoryRegion, writeGpaHva, hSlots]

/-- One call to the kernel keeps the invariant when the record is legal and
the new slot array lists the changed map. -/
theorem SlotLog.write (h : SlotLog kml) (hSlots : kml.slots = before ++ old :: after)
    (hLegal : Legal (logged kml) (slot.record.entry, new))
    (hRepresents : Represents (livePairs before ++ (slot.pair.toList ++ livePairs after))
      (Function.update (logged kml) slot.record.entry.1 slot.record.entry.2)) :
    SlotLog (kvmSetUserMemoryRegion kml before.length slot new) where
  hgfile_eq := by
    rw [kvmSetUserMemoryRegion, writeGpaHva, h.hgfile_eq, List.map_append]
    rfl
  legal := by
    have hOperations : operations (kvmSetUserMemoryRegion kml before.length slot new) =
        operations kml ++ [(slot.record.entry, new)] := by
      rw [operations, kvmSetUserMemoryRegion, writeGpaHva, List.map_append]
      rfl
    rw [hOperations]
    apply h.legal.concat
    rw [map_fst_operations h]
    exact hLegal
  represents := by
    have hLogged : logged (kvmSetUserMemoryRegion kml before.length slot new) =
        Function.update (logged kml) slot.record.entry.1 slot.record.entry.2 := by
      rw [logged, kvmSetUserMemoryRegion, writeGpaHva, List.map_append, List.map_singleton,
        replay_concat]
      rfl
    rw [slots_kvmSetUserMemoryRegion hSlots, livePairs_split, hLogged]
    exact hRepresents

theorem SlotLog.represents_split (h : SlotLog kml) (hSlots : kml.slots = before ++ old :: after) :
    Represents (livePairs before ++ (old.pair.toList ++ livePairs after)) (logged kml) := by
  rw [← livePairs_split, ← hSlots]
  exact h.represents

theorem pair_of_live (hLive : slot.Live) :
    slot.pair = some (slot.startAddr, (slot.ram, slot.memorySize)) := if_neg hLive

theorem pair_of_not_live (hFree : slot.memorySize = 0) : slot.pair = none := if_pos hFree

theorem entry_of_live (hLive : slot.Live) :
    slot.record.entry = (slot.startAddr, some (slot.ram, slot.memorySize)) := by
  rw [SlotRecord.entry]
  exact congrArg _ (if_neg hLive)

theorem entry_of_not_live (hFree : slot.memorySize = 0) :
    slot.record.entry = (slot.startAddr, none) := by
  rw [SlotRecord.entry]
  exact congrArg _ (if_pos hFree)

/-- A live slot is what the log says about its address. -/
theorem SlotLog.logged_of_live (h : SlotLog kml) (hSlots : kml.slots = before ++ old :: after)
    (hLive : old.Live) : logged kml old.startAddr = some (old.ram, old.memorySize) := by
  rw [← (h.represents_split hSlots).mem_iff, pair_of_live hLive]
  simp

/-- Registering a free slot for an address at which nothing starts. -/
theorem SlotLog.registerSlot (h : SlotLog kml) (hSlots : kml.slots = before ++ old :: after)
    (hFree : old.memorySize = 0) (hLive : slot.Live) (hAbsent : logged kml slot.startAddr = none) :
    SlotLog (kvmSetUserMemoryRegion kml before.length slot true) := by
  have hSplit := h.represents_split hSlots
  rw [pair_of_not_live hFree] at hSplit
  apply h.write hSlots
  · rw [Legal, if_pos rfl, entry_of_live hLive]
    exact ⟨hAbsent, Option.some_ne_none _⟩
  · rw [pair_of_live hLive, entry_of_live hLive]
    exact Represents.insert hSplit hAbsent

/-- Unregistering a live slot, which keeps its start. -/
theorem SlotLog.unregisterSlot (h : SlotLog kml) (hSlots : kml.slots = before ++ old :: after)
    (hLive : old.Live) (hStart : slot.startAddr = old.startAddr) (hFree : slot.memorySize = 0) :
    SlotLog (kvmSetUserMemoryRegion kml before.length slot false) := by
  have hSplit := h.represents_split hSlots
  rw [pair_of_live hLive] at hSplit
  apply h.write hSlots
  · rw [Legal, if_neg Bool.false_ne_true, entry_of_not_live hFree, hStart,
      h.logged_of_live hSlots hLive]
    exact ⟨Option.some_ne_none _, Or.inl rfl⟩
  · rw [pair_of_not_live hFree, entry_of_not_live hFree, hStart]
    exact Represents.erase hSplit

/-- Writing a live slot again with other flags. -/
theorem SlotLog.rewriteSlot (h : SlotLog kml) (hSlots : kml.slots = before ++ old :: after)
    (hLive : old.Live) (flags : MemFlags) :
    SlotLog (kvmSetUserMemoryRegion kml before.length { old with flags := flags } false) := by
  have hSplit := h.represents_split hSlots
  have hLogged := h.logged_of_live hSlots hLive
  have hLiveNew : KVMSlot.Live { old with flags := flags } := hLive
  rw [pair_of_live hLive] at hSplit
  apply h.write hSlots
  · rw [Legal, if_neg Bool.false_ne_true, entry_of_live hLiveNew]
    exact ⟨by rw [hLogged]; exact Option.some_ne_none _, Or.inr hLogged.symm⟩
  · rw [pair_of_live hLiveNew, entry_of_live hLiveNew, ← hLogged, Function.update_eq_self]
    exact hSplit

end Write

section Events

variable {s : KVMState} {kml kml' : KVMMemoryListener}

/-- Other flags are written to the file again, with the same range. -/
theorem SlotLog.updateFlags (h : SlotLog kml) {before after : List KVMSlot} {mem : KVMSlot}
    (hSlots : kml.slots = before ++ mem :: after) (hLive : mem.Live) (mr : MemoryRegion) :
    SlotLog (kvmSlotUpdateFlags s kml before.length mem mr) := by
  rw [kvmSlotUpdateFlags]
  split
  · have hArray : (kml.slots.set before.length { mem with flags := kvmMemFlags s mr }) =
        before ++ { mem with flags := kvmMemFlags s mr } :: after := by
      simp [hSlots]
    have hSplit := h.represents_split hSlots
    refine ⟨h.hgfile_eq, h.legal, ?_⟩
    rw [hArray, livePairs_split]
    exact hSplit
  · exact h.rewriteSlot hSlots hLive _

/-- The parts of a section are not empty and add up to it. -/
theorem slotSizesFrom_spec (s : KVMState) (fuel size : Nat) (hFuel : size ≤ fuel) :
    (∀ slotSize ∈ slotSizesFrom s fuel size, 0 < slotSize) ∧
      (slotSizesFrom s fuel size).sum = size := by
  induction fuel generalizing size with
  | zero =>
      have hZero : size = 0 := by omega
      subst hZero
      exact ⟨fun _ h => absurd h List.not_mem_nil, rfl⟩
  | succ fuel ih =>
      rw [slotSizesFrom]
      by_cases hZero : size = 0
      · rw [if_pos hZero]
        exact ⟨fun _ h => absurd h List.not_mem_nil, hZero.symm⟩
      · have hMax := s.maxSlotSize_pos
        obtain ⟨hRest, hSum⟩ := ih (size - min s.maxSlotSize size) (by omega)
        rw [if_neg hZero, List.forall_mem_cons, List.sum_cons, hSum]
        exact ⟨⟨by omega, hRest⟩, by omega⟩

/-- A range is cut into parts of at most the largest size of a slot. -/
theorem slotSizes_spec (s : KVMState) (size : Nat) :
    (∀ slotSize ∈ slotSizes s size, 0 < slotSize) ∧ (slotSizes s size).sum = size :=
  slotSizesFrom_spec s size size le_rfl

theorem ofNat_ne_zero {n : Nat} (hPos : 0 < n) (hLt : n < 2 ^ 64) : UInt64.ofNat n ≠ 0 := by
  intro h
  have hValue := congrArg UInt64.toNat h
  rw [UInt64.toNat_ofNat_of_lt' hLt] at hValue
  exact absurd hValue hPos.ne'

/-- A slot that is looked up by its range is in use. -/
theorem lookup_live {slots : List KVMSlot} {startAddr slotSize i : Nat} {mem : KVMSlot}
    (hPos : 0 < slotSize) (hLt : slotSize < 2 ^ 64)
    (h : kvmLookupMatchingSlot slots (.ofNat startAddr) (.ofNat slotSize) = some (i, mem)) :
    ∃ before after, slots = before ++ mem :: after ∧ before.length = i ∧ mem.Live := by
  obtain ⟨before, after, hSplit, hLength, hTest⟩ := findSlot_some h
  refine ⟨before, after, hSplit, hLength, ?_⟩
  rw [Bool.and_eq_true, beq_iff_eq, beq_iff_eq] at hTest
  rw [KVMSlot.Live, ← hTest.2]
  exact ofNat_ne_zero hPos hLt

/-- Every part that is taken away leaves a record of size zero. -/
theorem SlotLog.unregisterSlots (h : SlotLog kml) (startAddr : Nat) (sizes : List Nat)
    (hSizes : ∀ slotSize ∈ sizes, 0 < slotSize ∧ slotSize < 2 ^ 64) :
    SlotLog (unregisterSlots startAddr sizes kml) := by
  induction sizes generalizing startAddr kml with
  | nil => exact h
  | cons slotSize sizes ih =>
      obtain ⟨hHead, hTail⟩ := List.forall_mem_cons.mp hSizes
      rw [Qemu.unregisterSlots]
      cases hLookup : kvmLookupMatchingSlot kml.slots (.ofNat startAddr) (.ofNat slotSize) with
      | none => exact h
      | some found =>
          obtain ⟨before, after, hSlots, hLength, hLive⟩ := lookup_live hHead.1 hHead.2 hLookup
          apply ih _ _ hTail
          rw [← hLength]
          exact h.unregisterSlot hSlots hLive rfl rfl

/-- Every part whose flags change leaves a record. -/
theorem SlotLog.updateSlots (h : SlotLog kml) (mr : MemoryRegion) (startAddr : Nat)
    (sizes : List Nat) (hSizes : ∀ slotSize ∈ sizes, 0 < slotSize ∧ slotSize < 2 ^ 64) :
    SlotLog (updateSlots s mr startAddr sizes kml) := by
  induction sizes generalizing startAddr kml with
  | nil => exact h
  | cons slotSize sizes ih =>
      obtain ⟨hHead, hTail⟩ := List.forall_mem_cons.mp hSizes
      rw [Qemu.updateSlots]
      cases hLookup : kvmLookupMatchingSlot kml.slots (.ofNat startAddr) (.ofNat slotSize) with
      | none => exact h
      | some found =>
          obtain ⟨before, after, hSlots, hLength, hLive⟩ := lookup_live hHead.1 hHead.2 hLookup
          apply ih _ _ hTail
          rw [← hLength]
          exact h.updateFlags hSlots hLive mr

/-- No live slot reaches into the interval of `length` bytes from `startAddr`. -/
def IntervalFree (slots : List KVMSlot) (startAddr length : Nat) : Prop :=
  ∀ slot ∈ slots, slot.Live →
    slot.startAddr.toNat + slot.memorySize.toNat ≤ startAddr ∨
      startAddr + length ≤ slot.startAddr.toNat

/-- Nothing starts at the first address of a free interval. -/
theorem SlotLog.logged_eq_none (h : SlotLog kml) {startAddr length : Nat} (hPos : 0 < length)
    (hLt : startAddr < 2 ^ 64) (hFree : IntervalFree kml.slots startAddr length) :
    logged kml (.ofNat startAddr) = none := by
  cases hLogged : logged kml (.ofNat startAddr) with
  | none => rfl
  | some mapping =>
      exfalso
      have hMem := (h.represents.mem_iff _ _).mpr hLogged
      obtain ⟨slot, hSlot, hPair⟩ := List.mem_filterMap.mp hMem
      by_cases hSize : slot.memorySize = 0
      · rw [pair_of_not_live hSize] at hPair
        cases hPair
      · rw [pair_of_live hSize] at hPair
        have hKey : slot.startAddr = .ofNat startAddr := congrArg Prod.fst (Option.some.inj hPair)
        have hStart : slot.startAddr.toNat = startAddr := by
          rw [hKey, UInt64.toNat_ofNat_of_lt' hLt]
        have hNonzero : slot.memorySize.toNat ≠ 0 :=
          fun hZero => hSize (UInt64.toNat_inj.mp hZero)
        rcases hFree slot hSlot hSize with hBelow | hAbove
        · omega
        · omega

/-- The adding loop, with what is left of the section still free. -/
theorem SlotLog.registerSlots (h : SlotLog kml) (flags : MemFlags)
    (startAddr ram ramStartOffset : Nat) (sizes : List Nat)
    (hSizes : ∀ slotSize ∈ sizes, 0 < slotSize)
    (hEnd : startAddr + sizes.sum ≤ 2 ^ 64) (hSum : sizes.sum < 2 ^ 64)
    (hFree : IntervalFree kml.slots startAddr sizes.sum)
    (hResult : registerSlots flags startAddr ram ramStartOffset sizes kml = some kml') :
    SlotLog kml' := by
  induction sizes generalizing startAddr ram ramStartOffset kml with
  | nil =>
      cases hResult
      exact h
  | cons slotSize sizes ih =>
      obtain ⟨hHead, hTail⟩ := List.forall_mem_cons.mp hSizes
      rw [List.sum_cons] at hEnd hSum hFree
      rw [Qemu.registerSlots] at hResult
      cases hLookup : kvmGetFreeSlot kml.slots with
      | none =>
          rw [hLookup] at hResult
          cases hResult
      | some found =>
          obtain ⟨i, old⟩ := found
          rw [hLookup] at hResult
          obtain ⟨before, after, hSlots, hLength, hTest⟩ := findSlot_some hLookup
          subst hLength
          have hLive : UInt64.ofNat slotSize ≠ 0 := ofNat_ne_zero hHead (by omega)
          have hAbsent : logged kml (.ofNat startAddr) = none :=
            h.logged_eq_none (by omega) (by omega) hFree
          refine ih ?_ _ _ _ hTail (by omega) (by omega) ?_ hResult
          · exact h.registerSlot hSlots (beq_iff_eq.mp hTest) hLive hAbsent
          · rw [slots_kvmSetUserMemoryRegion hSlots]
            intro slot hSlot hSlotLive
            rw [List.mem_append, List.mem_cons] at hSlot
            have hOthers (hOld : slot ∈ kml.slots) :
                slot.startAddr.toNat + slot.memorySize.toNat ≤ startAddr + slotSize ∨
                  startAddr + slotSize + sizes.sum ≤ slot.startAddr.toNat := by
              rcases hFree slot hOld hSlotLive with hBelow | hAbove
              · exact Or.inl (by omega)
              · exact Or.inr (by omega)
            rcases hSlot with hBefore | rfl | hAfter
            · exact hOthers (by rw [hSlots]; exact List.mem_append_left _ hBefore)
            · left
              have hStartLt : startAddr < 2 ^ 64 := by omega
              have hSizeLt : slotSize < 2 ^ 64 := by omega
              change (UInt64.ofNat startAddr).toNat + (UInt64.ofNat slotSize).toNat ≤ _
              rw [UInt64.toNat_ofNat_of_lt' hStartLt, UInt64.toNat_ofNat_of_lt' hSizeLt]
            · exact hOthers (by rw [hSlots]; simp [hAfter])

/-- An aligned section does not go beyond the address space. -/
theorem kvmAlignSection_spec (s : KVMState) (sec : MemoryRegionSection)
    (hPos : (kvmAlignSection s sec).1 ≠ 0) :
    (kvmAlignSection s sec).1 < 2 ^ 64 ∧
      (kvmAlignSection s sec).2 + (kvmAlignSection s sec).1 ≤ 2 ^ 64 := by
  have hSize := sec.size_lt
  have hEnd := sec.end_le
  simp only [kvmAlignSection] at hPos ⊢
  have hAligned : sec.offsetWithinAddressSpace ≤
      (sec.offsetWithinAddressSpace + s.pageSize - 1) / s.pageSize * s.pageSize := by
    have hMod := Nat.div_add_mod (sec.offsetWithinAddressSpace + s.pageSize - 1) s.pageSize
    have hLt := Nat.mod_lt (sec.offsetWithinAddressSpace + s.pageSize - 1) s.pageSize_pos
    rw [Nat.mul_comm] at hMod
    omega
  generalize (sec.offsetWithinAddressSpace + s.pageSize - 1) / s.pageSize * s.pageSize = aligned
    at hPos hAligned ⊢
  split at hPos
  · exact absurd rfl hPos
  · next hFits =>
      rw [if_neg hFits]
      have hMask :=
        Nat.div_mul_le_self (sec.size - (aligned - sec.offsetWithinAddressSpace)) s.pageSize
      constructor
      · change _ / _ * _ < _
        omega
      · change aligned + _ / _ * _ ≤ _
        omega

theorem slotSizes_bounds (s : KVMState) (sec : MemoryRegionSection) :
    ∀ slotSize ∈ slotSizes s (kvmAlignSection s sec).1, 0 < slotSize ∧ slotSize < 2 ^ 64 := by
  intro slotSize hMem
  obtain ⟨hPos, hSum⟩ := slotSizes_spec s (kvmAlignSection s sec).1
  have hLe := List.le_sum_of_mem hMem
  have hSize := hPos slotSize hMem
  have hLt := (kvmAlignSection_spec s sec (by omega)).1
  omega

/-- Every event of the memory core keeps the invariant. -/
theorem SlotLog.handleEvent (h : SlotLog kml) {event : MemoryEvent}
    (hStep : Step s kml event kml') : SlotLog kml' := by
  obtain ⟨hAdmissible, hResult⟩ := hStep
  cases event with
  | setPhysMem sec add =>
      simp only [Qemu.handleEvent, kvmSetPhysMem] at hResult
      split_ifs at hResult with hTrap hEmpty hAdd
      · cases hResult
        exact h
      · cases hResult
        exact h
      · obtain ⟨hPos, hSum⟩ := slotSizes_spec s (kvmAlignSection s sec).1
        obtain ⟨hLt, hEnd⟩ := kvmAlignSection_spec s sec hEmpty
        have hFree := hAdmissible (Bool.and_eq_true_iff.mp hAdd).1
        refine h.registerSlots _ _ _ _ _ hPos ?_ ?_ ?_ hResult
        · rw [hSum]
          exact hEnd
        · rw [hSum]
          exact hLt
        · rw [hSum]
          exact hFree
      · cases hResult
        exact h.unregisterSlots _ _ (slotSizes_bounds s sec)
  | sectionUpdateFlags sec =>
      cases hResult
      exact h.updateSlots sec.mr _ _ (slotSizes_bounds s sec)
  | slotUpdateFlags i mr =>
      obtain ⟨mem, hMem, hLive⟩ := hAdmissible
      rw [Qemu.handleEvent, hMem] at hResult
      cases hResult
      obtain ⟨hIndex, rfl⟩ := List.getElem?_eq_some_iff.mp hMem
      have hSlots : kml.slots = kml.slots.take i ++ kml.slots[i] :: kml.slots.drop (i + 1) := by
        rw [List.cons_getElem_drop_succ, List.take_append_drop]
      have hLength : (kml.slots.take i).length = i := by
        rw [List.length_take]
        omega
      have hUpdated := h.updateFlags (s := s) hSlots hLive mr
      rw [hLength] at hUpdated
      exact hUpdated

/-- The invariant holds after every run from an empty slot array. -/
theorem SlotLog.run {nrSlots : Nat} {events : List MemoryEvent}
    (run : Run (Step s) (.register nrSlots) events kml) : SlotLog kml :=
  run.invariant (SlotLog.register nrSlots) fun _ _ _ h hStep => h.handleEvent hStep

end Events

/-- The last record of the file with guest address `g`. -/
def lastRecord (hgfile : List SlotRecord) (g : UInt64) : Option SlotRecord :=
  (hgfile.filter fun r => r.guestPhysAddr = g).getLast?

theorem logged_eq_lastRecord (kml : KVMMemoryListener) (g : UInt64) :
    logged kml g = (lastRecord kml.hgfile g).bind fun r => r.entry.2 := by
  rw [logged, replay_eq_getLast, List.filter_map, List.getLast?_map, lastRecord, Option.bind_map]
  rfl

/-- After every run, the last record of an address has a size exactly when a
live slot starts there, and then it describes that slot. -/
theorem hgfile_decides_slots {s : KVMState} {nrSlots : Nat} {events : List MemoryEvent}
    {kml : KVMMemoryListener} (run : Run (Step s) (.register nrSlots) events kml) (g : UInt64) :
    ((∃ r, lastRecord kml.hgfile g = some r ∧ r.memorySize ≠ 0) ↔
      ∃ slot ∈ kml.slots, slot.Live ∧ slot.startAddr = g) ∧
    ∀ slot ∈ kml.slots, slot.Live → slot.startAddr = g →
      ∃ r, lastRecord kml.hgfile g = some r ∧ r.userspaceAddr = slot.ram ∧
        r.memorySize = slot.memorySize := by
  have h := SlotLog.run run
  have hLogged := logged_eq_lastRecord kml g
  have hSlot : ∀ slot ∈ kml.slots, slot.Live → slot.startAddr = g →
      ∃ r, lastRecord kml.hgfile g = some r ∧ r.userspaceAddr = slot.ram ∧
        r.memorySize = slot.memorySize := by
    intro slot hMem hLive hStart
    obtain ⟨before, after, hSlots⟩ := List.append_of_mem hMem
    have hValue := h.logged_of_live hSlots hLive
    rw [hStart, hLogged] at hValue
    obtain ⟨r, hLast, hEntry⟩ := Option.bind_eq_some_iff.mp hValue
    simp only [SlotRecord.entry, Option.ite_none_left_eq_some, Option.some.injEq,
      Prod.mk.injEq] at hEntry
    exact ⟨r, hLast, hEntry.2.1, hEntry.2.2⟩
  refine ⟨⟨?_, ?_⟩, hSlot⟩
  · intro hRecord
    obtain ⟨r, hLast, hSize⟩ := hRecord
    have hValue : logged kml g = some (r.userspaceAddr, r.memorySize) := by
      rw [hLogged, hLast]
      exact if_neg hSize
    obtain ⟨slot, hMem, hPair⟩ := List.mem_filterMap.mp ((h.represents.mem_iff _ _).mpr hValue)
    simp only [KVMSlot.pair, Option.ite_none_left_eq_some, Option.some.injEq,
      Prod.mk.injEq] at hPair
    exact ⟨slot, hMem, hPair.1, hPair.2.1⟩
  · intro hLive
    obtain ⟨slot, hMem, hLive, hStart⟩ := hLive
    obtain ⟨r, hLast, _, hSize⟩ := hSlot slot hMem hLive hStart
    exact ⟨r, hLast, by rw [hSize]; exact hLive⟩

/-- Sections are split at two pages. -/
def smallSlots : KVMState := ⟨4096, 8192, true, by decide, by decide⟩

def ramRegion (ramPtr : Nat) : MemoryRegion := ⟨true, false, false, false, 0, ramPtr, 0⟩

/-- Three pages of a region at guest address 4096. -/
def threePages (ramPtr : Nat) : MemoryRegionSection :=
  ⟨ramRegion ramPtr, 0, 4096, 12288, by decide, by decide⟩

def remapEvents : List MemoryEvent :=
  [.setPhysMem (threePages 1000000) true, .setPhysMem (threePages 1000000) false,
    .setPhysMem (threePages 2000000) true]

/-- The listener after the first `n` of the events. -/
def remapped (n : Nat) : KVMMemoryListener :=
  ((remapEvents.take n).foldlM (handleEvent smallSlots) (.register 4)).getD (.register 0)

theorem run_registered : Run (Step smallSlots) (.register 4) (remapEvents.take 1) (remapped 1) := by
  have hStep : Step smallSlots (remapped 0) (.setPhysMem (threePages 1000000) true) (remapped 1) :=
    ⟨by unfold Admissible NoOverlap; decide, by decide +kernel⟩
  exact Run.nil.concat hStep

theorem run_unregistered :
    Run (Step smallSlots) (.register 4) (remapEvents.take 2) (remapped 2) :=
  Run.concat run_registered ⟨fun hAdd => Bool.noConfusion hAdd, by decide +kernel⟩

theorem run_remapped : Run (Step smallSlots) (.register 4) remapEvents (remapped 3) := by
  apply Run.concat run_unregistered
  exact ⟨by unfold Admissible NoOverlap; decide +kernel, by decide +kernel⟩

/-- The old address has the new mapping. -/
theorem remapped_decides :
    (∃ r, lastRecord (remapped 3).hgfile 4096 = some r ∧ r.memorySize ≠ 0) ∧
      (remapped 3).hgfile.map SlotRecord.userspaceAddr =
        [1000000, 1008192, 1000000, 1008192, 2000000, 2008192] := by
  refine ⟨(hgfile_decides_slots run_remapped 4096).1.mpr ?_, by decide +kernel⟩
  decide +kernel

end Qemu
