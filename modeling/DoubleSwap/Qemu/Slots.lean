import DoubleSwap.Text.Decimal

/-! The memory slots of one address space. Sections of guest memory are split
into slots, registered and unregistered with the kernel, and every such call
appends one record to `/tmp/hgfile.txt`. The calls to the kernel succeed. -/
namespace Qemu

open Text

/-- The two flags of `kvm_mem_flags`. -/
structure MemFlags where
  logDirtyPages : Bool
  readonly : Bool
  deriving DecidableEq, Repr

/-- `mem->flags = 0`. -/
def MemFlags.zero : MemFlags := ⟨false, false⟩

structure MemoryRegion where
  ram : Bool
  readonly : Bool
  romDevice : Bool
  romdMode : Bool
  dirtyLogMask : Nat
  /-- `memory_region_get_ram_ptr`. -/
  ramPtr : Nat
  /-- `memory_region_get_ram_addr`. -/
  ramAddr : Nat
  deriving DecidableEq, Repr

/-- A section of the guest's address space. The memory core only builds
sections that lie in the address space and whose size fits in 64 bits. -/
structure MemoryRegionSection where
  mr : MemoryRegion
  offsetWithinRegion : Nat
  offsetWithinAddressSpace : Nat
  size : Nat
  size_lt : size < 2 ^ 64
  end_le : offsetWithinAddressSpace + size ≤ 2 ^ 64

structure KVMSlot where
  startAddr : UInt64
  memorySize : UInt64
  ram : UInt64
  ramStartOffset : UInt64
  flags : MemFlags
  oldFlags : MemFlags
  deriving DecidableEq, Repr

/-- The constants of a run of qemu. `maxSlotSize` is `kvm_max_slot_size`. -/
structure KVMState where
  pageSize : Nat
  maxSlotSize : Nat
  readonlyMemAllowed : Bool
  pageSize_pos : 0 < pageSize
  maxSlotSize_pos : 0 < maxSlotSize

/-- A line of `/tmp/hgfile.txt`, as `write_gpa_hva` gets it. -/
structure SlotRecord where
  userspaceAddr : UInt64
  guestPhysAddr : UInt64
  memorySize : UInt64
  addr : UInt64
  deriving DecidableEq, Repr

/-- The slot array, the slot log, and the lines that `write_gpa_hva` prints on
the console, which also tell whether the slot is new. -/
structure KVMMemoryListener where
  slots : List KVMSlot
  hgfile : List SlotRecord
  printed : List (SlotRecord × Bool)
  deriving DecidableEq, Repr

/-- `"%llu %llu %llu %llu\n"`. -/
def SlotRecord.line (r : SlotRecord) : Text :=
  decimal r.userspaceAddr.toNat ++ ' ' :: (decimal r.guestPhysAddr.toNat ++
    ' ' :: (decimal r.memorySize.toNat ++ ' ' :: (decimal r.addr.toNat ++ ['\n'])))

def KVMSlot.record (slot : KVMSlot) : SlotRecord :=
  ⟨slot.ram, slot.startAddr, slot.memorySize, slot.ramStartOffset⟩

/-- The slot array before anything is registered. -/
def KVMSlot.unused : KVMSlot := ⟨0, 0, 0, 0, .zero, .zero⟩

/-- No slots and an empty log. -/
def KVMMemoryListener.register (nrSlots : Nat) : KVMMemoryListener :=
  ⟨List.replicate nrSlots .unused, [], []⟩

/-- The first slot for which the test holds, with its number. -/
def findSlot (test : KVMSlot → Bool) : List KVMSlot → Option (Nat × KVMSlot)
  | [] => none
  | slot :: slots =>
      if test slot then some (0, slot)
      else (findSlot test slots).map fun (i, found) => (i + 1, found)

/-- `kvm_get_free_slot`. -/
def kvmGetFreeSlot (slots : List KVMSlot) : Option (Nat × KVMSlot) :=
  findSlot (fun slot => slot.memorySize == 0) slots

/-- `kvm_lookup_matching_slot`. -/
def kvmLookupMatchingSlot (slots : List KVMSlot) (startAddr size : UInt64) :
    Option (Nat × KVMSlot) :=
  findSlot (fun mem => startAddr == mem.startAddr && size == mem.memorySize) slots

/-- `kvm_align_section`: the size and the start of the aligned section. -/
def kvmAlignSection (s : KVMState) (sec : MemoryRegionSection) : Nat × Nat :=
  let aligned := (sec.offsetWithinAddressSpace + s.pageSize - 1) / s.pageSize * s.pageSize
  let delta := aligned - sec.offsetWithinAddressSpace
  if sec.size < delta then (0, aligned)
  else ((sec.size - delta) / s.pageSize * s.pageSize, aligned)

/-- `write_gpa_hva`. -/
def writeGpaHva (kml : KVMMemoryListener) (mem : SlotRecord) (new : Bool) : KVMMemoryListener :=
  { kml with hgfile := kml.hgfile ++ [mem], printed := kml.printed ++ [(mem, new)] }

/-- `kvm_set_user_memory_region` for the slot of number `i`, whose fields have
just been set to those of `slot`. An extra call to the kernel that empties a
slot whose read-only flag changes is not logged. -/
def kvmSetUserMemoryRegion (kml : KVMMemoryListener) (i : Nat) (slot : KVMSlot) (new : Bool) :
    KVMMemoryListener :=
  writeGpaHva { kml with slots := kml.slots.set i { slot with oldFlags := slot.flags } }
    slot.record new

/-- `kvm_mem_flags`. -/
def kvmMemFlags (s : KVMState) (mr : MemoryRegion) : MemFlags where
  logDirtyPages := mr.dirtyLogMask != 0
  readonly := (mr.readonly || (mr.romDevice && mr.romdMode)) && s.readonlyMemAllowed

/-- `kvm_slot_update_flags`. -/
def kvmSlotUpdateFlags (s : KVMState) (kml : KVMMemoryListener) (i : Nat) (mem : KVMSlot)
    (mr : MemoryRegion) : KVMMemoryListener :=
  let mem := { mem with flags := kvmMemFlags s mr }
  if mem.flags = mem.oldFlags then { kml with slots := kml.slots.set i mem }
  else kvmSetUserMemoryRegion kml i mem false

/-- The values that `slot_size = MIN(kvm_max_slot_size, size)` takes in a loop
that subtracts them from `size` until nothing is left. -/
def slotSizesFrom (s : KVMState) : Nat → Nat → List Nat
  | 0, _ => []
  | fuel + 1, size =>
      if size = 0 then []
      else min s.maxSlotSize size :: slotSizesFrom s fuel (size - min s.maxSlotSize size)

def slotSizes (s : KVMState) (size : Nat) : List Nat := slotSizesFrom s size size

/-- The loop of `kvm_section_update_flags`. -/
def updateSlots (s : KVMState) (mr : MemoryRegion) (startAddr : Nat) :
    List Nat → KVMMemoryListener → KVMMemoryListener
  | [], kml => kml
  | slotSize :: sizes, kml =>
      match kvmLookupMatchingSlot kml.slots (.ofNat startAddr) (.ofNat slotSize) with
      | none => kml
      | some (i, mem) =>
          updateSlots s mr (startAddr + slotSize) sizes (kvmSlotUpdateFlags s kml i mem mr)

/-- `kvm_section_update_flags`. -/
def kvmSectionUpdateFlags (s : KVMState) (kml : KVMMemoryListener) (sec : MemoryRegionSection) :
    KVMMemoryListener :=
  let (size, startAddr) := kvmAlignSection s sec
  updateSlots s sec.mr startAddr (slotSizes s size) kml

/-- The removing loop of `kvm_set_phys_mem`. It ends at the first part of the
section that has no slot. -/
def unregisterSlots (startAddr : Nat) : List Nat → KVMMemoryListener → KVMMemoryListener
  | [], kml => kml
  | slotSize :: sizes, kml =>
      match kvmLookupMatchingSlot kml.slots (.ofNat startAddr) (.ofNat slotSize) with
      | none => kml
      | some (i, mem) =>
          unregisterSlots (startAddr + slotSize) sizes
            (kvmSetUserMemoryRegion kml i { mem with memorySize := 0, flags := .zero } false)

/-- The adding loop of `kvm_set_phys_mem`, with `none` where
`kvm_alloc_slot` aborts because no slot is free. -/
def registerSlots (flags : MemFlags) (startAddr ram ramStartOffset : Nat) :
    List Nat → KVMMemoryListener → Option KVMMemoryListener
  | [], kml => some kml
  | slotSize :: sizes, kml => do
      let (i, mem) ← kvmGetFreeSlot kml.slots
      let mem := { mem with
        memorySize := .ofNat slotSize
        startAddr := .ofNat startAddr
        ramStartOffset := .ofNat ramStartOffset
        ram := .ofNat ram
        flags := flags }
      registerSlots flags (startAddr + slotSize) (ram + slotSize) (ramStartOffset + slotSize) sizes
        (kvmSetUserMemoryRegion kml i mem true)

/-- `kvm_set_phys_mem`. -/
def kvmSetPhysMem (s : KVMState) (kml : KVMMemoryListener) (sec : MemoryRegionSection)
    (add : Bool) : Option KVMMemoryListener :=
  let mr := sec.mr
  let writable := !mr.readonly && !mr.romDevice
  if !mr.ram && (writable || !s.readonlyMemAllowed) then some kml
  else
    -- a memory device that is not in romd mode must trap, so its slot goes
    let add := add && (mr.ram || mr.romdMode)
    let (size, startAddr) := kvmAlignSection s sec
    if size = 0 then some kml
    else
      let mrOffset := sec.offsetWithinRegion + startAddr - sec.offsetWithinAddressSpace
      let ram := mr.ramPtr + mrOffset
      let ramStartOffset := mr.ramAddr + mrOffset
      if add then
        registerSlots (kvmMemFlags s mr) startAddr ram ramStartOffset (slotSizes s size) kml
      else some (unregisterSlots startAddr (slotSizes s size) kml)

/-- What the memory core asks of the listener. -/
inductive MemoryEvent where
  | setPhysMem (sec : MemoryRegionSection) (add : Bool)
  | sectionUpdateFlags (sec : MemoryRegionSection)
  /-- `kvm_slot_update_flags` for the slot of number `i`. -/
  | slotUpdateFlags (i : Nat) (mr : MemoryRegion)

/-- One event, with `none` for an abort. -/
def handleEvent (s : KVMState) (kml : KVMMemoryListener) : MemoryEvent → Option KVMMemoryListener
  | .setPhysMem sec add => kvmSetPhysMem s kml sec add
  | .sectionUpdateFlags sec => some (kvmSectionUpdateFlags s kml sec)
  | .slotUpdateFlags i mr => kml.slots[i]?.map fun mem => kvmSlotUpdateFlags s kml i mem mr

/-- A slot whose size is not zero. -/
def KVMSlot.Live (slot : KVMSlot) : Prop := slot.memorySize ≠ 0

instance (slot : KVMSlot) : Decidable slot.Live := inferInstanceAs (Decidable (_ ≠ _))

/-- The section overlaps no live slot. -/
def NoOverlap (s : KVMState) (kml : KVMMemoryListener) (sec : MemoryRegionSection) : Prop :=
  ∀ slot ∈ kml.slots, slot.Live →
    slot.startAddr.toNat + slot.memorySize.toNat ≤ (kvmAlignSection s sec).2 ∨
      (kvmAlignSection s sec).2 + (kvmAlignSection s sec).1 ≤ slot.startAddr.toNat

/-- What the memory core guarantees about its events: added sections overlap
nothing that is there, and flags are updated for live slots only. -/
def Admissible (s : KVMState) (kml : KVMMemoryListener) : MemoryEvent → Prop
  | .setPhysMem sec add => add = true → NoOverlap s kml sec
  | .sectionUpdateFlags _ => True
  | .slotUpdateFlags i _ => ∃ mem, kml.slots[i]? = some mem ∧ mem.Live

/-- One step of a run of the listener. -/
def Step (s : KVMState) (kml : KVMMemoryListener) (event : MemoryEvent)
    (kml' : KVMMemoryListener) : Prop :=
  Admissible s kml event ∧ handleEvent s kml event = some kml'

end Qemu
