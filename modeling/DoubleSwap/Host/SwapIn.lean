import DoubleSwap.Loggers.WorkQueue

/-! `do_swap_page` of the host, with what the kernel answers to its questions
as the input. The records of a swap-in are queued as soon as a folio is in
hand, before the lock and the checks after which the fault may back out. -/
namespace Host

open Loggers

/-- `PAGE_SIZE`. -/
def pageSize : Nat := 4096

/-- The bits of a `vm_fault_t` that `do_swap_page` sets. -/
structure VmFault where
  oom : Bool
  sigbus : Bool
  hwpoison : Bool
  major : Bool
  retry : Bool
  deriving DecidableEq, Repr

namespace VmFault

def none : VmFault := ⟨false, false, false, false, false⟩

/-- `a | b`. -/
def or (a b : VmFault) : VmFault :=
  ⟨a.oom || b.oom, a.sigbus || b.sigbus, a.hwpoison || b.hwpoison, a.major || b.major,
    a.retry || b.retry⟩

/-- `if (ret & VM_FAULT_ERROR) ret &= VM_FAULT_ERROR;` -/
def onlyError (a : VmFault) : VmFault :=
  if a.oom || a.sigbus || a.hwpoison then { a with major := false, retry := false } else a

end VmFault

/-- A folio, with the place of the faulting page in it. -/
structure Folio where
  nrPages : Nat
  pageIdx : Nat
  deriving DecidableEq, Repr

/-- The answers of `ksm_might_need_to_copy`. -/
inductive KsmCopy where
  | same | copied | oom | hwpoison
  deriving DecidableEq, Repr

/-- One fault: the address, the process that is found for the VMA, and what
the tests of `do_swap_page` find, in the order in which they are made. -/
structure SwapFault where
  address : Nat
  process : Option (Text × Text)
  /-- `pte_unmap_same`. -/
  pteUnmapSame : Bool
  /-- The entry is of another kind, and its handler answers so. -/
  nonSwapEntry : Option VmFault
  /-- `get_swap_device`. -/
  swapDevice : Bool
  /-- `swap_cache_get_folio`. -/
  cached : Option Folio
  /-- `PageHWPoison` of the cached page. -/
  hwPoison : Bool
  /-- Synchronous device, and the entry is used once. -/
  skipSwapcache : Bool
  /-- `alloc_swap_folio`. -/
  allocated : Option Folio
  /-- `swapcache_prepare` returned zero. -/
  prepared : Bool
  /-- `swapin_readahead`. -/
  readahead : Option Folio
  /-- The entry is unchanged when no folio could be had. -/
  sameWithoutFolio : Bool
  /-- `folio_lock_or_retry` returned `VM_FAULT_RETRY`. -/
  lockRetry : Bool
  /-- The folio is still in the swap cache, under the same entry. -/
  stillSwapcache : Bool
  ksm : KsmCopy
  /-- The entry is unchanged under the page table lock. -/
  sameUnderLock : Bool
  uptodate : Bool
  /-- The entries around the fault are those of the whole large folio. -/
  wholeRange : Bool
  /-- `do_wp_page`, for a write fault that is not settled yet. -/
  wpFault : Option VmFault

/-- What a call of `do_swap_page` does: its result, the pages that it maps
(first address and number), and the work that it queues. -/
structure SwapInOutcome where
  ret : VmFault
  mapped : Option (Nat × Nat)
  queued : List LogWork
  deriving DecidableEq, Repr

def backOut (ret : VmFault) (queued : List LogWork) : SwapInOutcome := ⟨ret, none, queued⟩

/-- One of the two logging loops. -/
def logSwapIn (f : SwapFault) (folio : Folio) (isCache : Bool) : List LogWork :=
  match f.process with
  | none => []
  | some (processName, time) =>
      (List.range folio.nrPages).map fun i =>
        .swapIn (f.address + 4096 * i) processName time isCache

/-- The end of the function, once the entry has been checked under the lock.
Only a large folio of the swap cache may be mapped in part. -/
def mapFolio (f : SwapFault) (folio : Folio) (swapcache : Bool) (ret : VmFault)
    (queued : List LogWork) : SwapInOutcome :=
  let ret' := match f.wpFault with
    | none => ret
    | some fault => (ret.or fault).onlyError
  if 1 < folio.nrPages then
    if f.wholeRange then
      let folioStart :=
        if swapcache then f.address - folio.pageIdx * pageSize
        else f.address / (folio.nrPages * pageSize) * (folio.nrPages * pageSize)
      ⟨ret', some (folioStart, folio.nrPages), queued⟩
    else if swapcache then ⟨ret', some (f.address, 1), queued⟩
    else backOut ret queued
  else ⟨ret', some (f.address, 1), queued⟩

/-- The checks under the page table lock. -/
def mapUnderLock (f : SwapFault) (folio : Folio) (swapcache : Bool) (ret : VmFault)
    (queued : List LogWork) : SwapInOutcome :=
  if !f.sameUnderLock then backOut ret queued
  else if !f.uptodate then backOut { VmFault.none with sigbus := true } queued
  else mapFolio f folio swapcache ret queued

/-- From `folio_lock_or_retry` on. `swapcache` tells whether the folio came
through the swap cache. -/
def lockAndMap (f : SwapFault) (folio : Folio) (swapcache : Bool) (ret : VmFault)
    (queued : List LogWork) : SwapInOutcome :=
  if f.lockRetry then backOut { ret with retry := true } queued
  else if !swapcache then mapUnderLock f folio false ret queued
  else if !f.stillSwapcache then backOut ret queued
  else
    match f.ksm with
    | .oom => backOut { VmFault.none with oom := true } queued
    | .hwpoison => backOut { VmFault.none with hwpoison := true } queued
    | .same => mapUnderLock f folio true ret queued
    -- a copy is a single page
    | .copied => mapUnderLock f ⟨1, 0⟩ true ret queued

/-- `do_swap_page`. -/
def doSwapPage (f : SwapFault) : SwapInOutcome :=
  if !f.pteUnmapSame then backOut .none []
  else
    match f.nonSwapEntry with
    | some ret => backOut ret []
    | none =>
        if !f.swapDevice then backOut .none []
        else
          match f.cached with
          | some folio =>
              let queued := logSwapIn f folio true
              if f.hwPoison then backOut { VmFault.none with hwpoison := true } queued
              else lockAndMap f folio true .none queued
          | none =>
              let failed :=
                backOut (if f.sameWithoutFolio then { VmFault.none with oom := true } else .none) []
              let major := { VmFault.none with major := true }
              if f.skipSwapcache then
                match f.allocated with
                | none => failed
                | some folio =>
                    if !f.prepared then backOut .none []
                    else lockAndMap f folio false major (logSwapIn f folio false)
              else
                match f.readahead with
                | none => failed
                | some folio => lockAndMap f folio true major (logSwapIn f folio false)

/-- The folio that the fault gets hold of, and whether it was in the cache. -/
def folioInHand (f : SwapFault) : Option (Folio × Bool) :=
  if f.pteUnmapSame && f.nonSwapEntry.isNone && f.swapDevice then
    match f.cached with
    | some folio => some (folio, true)
    | none =>
        if f.skipSwapcache then if f.prepared then f.allocated.map (·, false) else none
        else f.readahead.map (·, false)
  else none

@[simp] theorem backOut_queued (ret : VmFault) (queued : List LogWork) :
    (backOut ret queued).queued = queued := rfl

@[simp] theorem backOut_mapped (ret : VmFault) (queued : List LogWork) :
    (backOut ret queued).mapped = none := rfl

theorem mapFolio_queued (f : SwapFault) (folio : Folio) (swapcache : Bool) (ret : VmFault)
    (queued : List LogWork) : (mapFolio f folio swapcache ret queued).queued = queued := by
  simp only [mapFolio]
  split_ifs <;> rfl

theorem mapUnderLock_queued (f : SwapFault) (folio : Folio) (swapcache : Bool) (ret : VmFault)
    (queued : List LogWork) : (mapUnderLock f folio swapcache ret queued).queued = queued := by
  rw [mapUnderLock]
  split_ifs
  · rfl
  · rfl
  · exact mapFolio_queued _ _ _ _ _

/-- Nothing is queued after the logging loops. -/
theorem lockAndMap_queued (f : SwapFault) (folio : Folio) (swapcache : Bool) (ret : VmFault)
    (queued : List LogWork) : (lockAndMap f folio swapcache ret queued).queued = queued := by
  rw [lockAndMap]
  cases f.ksm with
  | oom => split_ifs <;> simp [mapUnderLock_queued]
  | hwpoison => split_ifs <;> simp [mapUnderLock_queued]
  | same => split_ifs <;> simp [mapUnderLock_queued]
  | copied => split_ifs <;> simp [mapUnderLock_queued]

/-- What a call queues is decided by the folio that it gets hold of, and a
call without a folio maps nothing. -/
theorem doSwapPage_folioInHand (f : SwapFault) :
    match folioInHand f with
    | none => (doSwapPage f).queued = [] ∧ (doSwapPage f).mapped = none
    | some (folio, isCache) => (doSwapPage f).queued = logSwapIn f folio isCache := by
  rw [folioInHand, doSwapPage]
  cases f.pteUnmapSame with
  | false => simp
  | true =>
      cases f.nonSwapEntry with
      | some ret => simp
      | none =>
          cases f.swapDevice with
          | false => simp
          | true =>
              cases f.cached with
              | some folio =>
                  cases f.hwPoison with
                  | true => simp
                  | false => simp [lockAndMap_queued]
              | none =>
                  cases f.skipSwapcache with
                  | true =>
                      cases f.allocated with
                      | none => cases f.prepared <;> simp
                      | some folio => cases f.prepared <;> simp [lockAndMap_queued]
                  | false =>
                      cases f.readahead with
                      | none => simp
                      | some folio => simp [lockAndMap_queued]

/-- The call backs out before it has a folio in hand. -/
def NoFolio (f : SwapFault) : Prop :=
  f.pteUnmapSame = false ∨ f.nonSwapEntry ≠ none ∨ f.swapDevice = false ∨
    f.cached = none ∧
      (f.skipSwapcache = true ∧ (f.allocated = none ∨ f.prepared = false) ∨
        f.skipSwapcache = false ∧ f.readahead = none)

theorem folioInHand_eq_none_iff (f : SwapFault) : folioInHand f = none ↔ NoFolio f := by
  rw [folioInHand, NoFolio]
  cases f.pteUnmapSame with
  | false => simp
  | true =>
      cases f.nonSwapEntry with
      | some ret => simp
      | none =>
          cases f.swapDevice with
          | false => simp
          | true =>
              cases f.cached with
              | some folio => simp
              | none =>
                  cases f.skipSwapcache with
                  | true => cases f.prepared <;> simp
                  | false => simp

/-- The faults of one swapped-out base page up to the one that maps it. Every
folio is a single page, and the process is always found. -/
structure FaultHistory where
  address : Nat
  earlier : List SwapFault
  last : SwapFault
  address_eq : ∀ f ∈ earlier ++ [last], f.address = address
  process_found : ∀ f ∈ earlier ++ [last], f.process ≠ none
  basePage : ∀ f ∈ earlier ++ [last], ∀ folio isCache, folioInHand f = some (folio, isCache) →
    folio.nrPages = 1
  earlier_backOut : ∀ f ∈ earlier, (doSwapPage f).mapped = none
  last_maps : (doSwapPage last).mapped ≠ none

def FaultHistory.faults (h : FaultHistory) : List SwapFault := h.earlier ++ [h.last]

/-- The swap-in records of a page that a call queues. -/
def inRecords (page : Nat) (f : SwapFault) : List LogWork :=
  (doSwapPage f).queued.filter fun work =>
    match work with
    | .swapIn pageAddr _ _ _ => pageAddr = page
    | _ => false

theorem inRecords_length (h : FaultHistory) {f : SwapFault} (hf : f ∈ h.faults) :
    (NoFolio f → (inRecords h.address f).length = 0) ∧
      (¬ NoFolio f → (inRecords h.address f).length = 1) := by
  rw [← folioInHand_eq_none_iff]
  have hCall := doSwapPage_folioInHand f
  cases hFolio : folioInHand f with
  | none =>
      rw [hFolio] at hCall
      refine ⟨fun _ => ?_, fun hNone => absurd rfl hNone⟩
      rw [inRecords, hCall.1]
      rfl
  | some found =>
      obtain ⟨folio, isCache⟩ := found
      rw [hFolio] at hCall
      obtain ⟨⟨processName, time⟩, hProcess⟩ := Option.ne_none_iff_exists'.mp (h.process_found f hf)
      refine ⟨fun hNone => (Option.some_ne_none _ hNone).elim, fun _ => ?_⟩
      rw [inRecords, hCall, logSwapIn, hProcess, h.basePage f hf folio isCache hFolio,
        h.address_eq f hf]
      simp

/-- Exactly one record is queued, by the call that maps the page, exactly when
every earlier call backs out before it has a folio in hand. -/
theorem one_swap_in_record_iff (h : FaultHistory) :
    ((h.faults.flatMap (inRecords h.address)).length = 1 ∧
        (inRecords h.address h.last).length = 1) ↔
      ∀ f ∈ h.earlier, NoFolio f := by
  have hLast : ¬ NoFolio h.last := by
    rw [← folioInHand_eq_none_iff]
    intro hNone
    have hCall := doSwapPage_folioInHand h.last
    rw [hNone] at hCall
    exact h.last_maps hCall.2
  have hOne := (inRecords_length h (List.mem_append_right _ (List.mem_singleton_self _))).2 hLast
  have hTotal : (h.faults.flatMap (inRecords h.address)).length =
      (h.earlier.flatMap (inRecords h.address)).length + 1 := by
    rw [FaultHistory.faults, List.flatMap_append, List.length_append, List.flatMap_singleton, hOne]
  rw [hTotal, and_iff_left hOne, Nat.add_eq_right, List.length_eq_zero_iff, List.flatMap_eq_nil_iff]
  apply forall₂_congr
  intro f hf
  have hCount := inRecords_length h (List.mem_append_left [h.last] hf)
  rw [← List.length_eq_zero_iff]
  constructor
  · intro hZero
    by_contra hFolio
    rw [hCount.2 hFolio] at hZero
    cases hZero
  · exact hCount.1

/-- A fault on a page of qemu that is read in from the swap device. -/
def readInFault : SwapFault where
  address := 140000000000000
  process := some ("qemu-system-x86".toList, "100".toList)
  pteUnmapSame := true
  nonSwapEntry := none
  swapDevice := true
  cached := none
  hwPoison := false
  skipSwapcache := false
  allocated := none
  prepared := true
  readahead := some ⟨1, 0⟩
  sameWithoutFolio := true
  lockRetry := false
  stillSwapcache := true
  ksm := .same
  sameUnderLock := true
  uptodate := true
  wholeRange := false
  wpFault := none

/-- The folio lock is contended, and the fault is taken again; by then the
folio is in the swap cache. -/
def retriedFault : FaultHistory where
  address := 140000000000000
  earlier := [{ readInFault with lockRetry := true }]
  last := { readInFault with cached := some ⟨1, 0⟩ }
  address_eq := by decide
  process_found := by decide
  basePage := by
    intro f hf folio isCache hFolio
    simp only [List.cons_append, List.nil_append, List.mem_cons, List.not_mem_nil, or_false] at hf
    rcases hf with rfl | rfl
    · cases hFolio
      rfl
    · cases hFolio
      rfl
  earlier_backOut := by decide
  last_maps := by decide

/-- One swap-in is recorded twice, first as a read and then as a cache hit. -/
theorem retriedFault_two_records :
    ¬ ((retriedFault.faults.flatMap (inRecords retriedFault.address)).length = 1 ∧
        (inRecords retriedFault.address retriedFault.last).length = 1) ∧
      (retriedFault.faults.flatMap (inRecords retriedFault.address)).map LogWork.tag =
        ["IN H NONE".toList, "IN H CACHE".toList] := by
  decide

/-- A fault whose large folio is mapped as a whole, so that page `pageIdx` of
it lands at the faulting address. -/
structure LargeSwapIn where
  fault : SwapFault
  folio : Folio
  isCache : Bool
  inHand : folioInHand fault = some (folio, isCache)
  large : 1 < folio.nrPages
  inFolio : folio.pageIdx < folio.nrPages
  aligned : pageSize ∣ fault.address
  startsAbove : folio.pageIdx * pageSize ≤ fault.address
  whole : (doSwapPage fault).mapped =
    some (fault.address - folio.pageIdx * pageSize, folio.nrPages)

/-- The addresses of the pages of the folio. -/
def LargeSwapIn.pages (s : LargeSwapIn) : List Nat :=
  (List.range s.folio.nrPages).map fun j =>
    s.fault.address - 4096 * s.folio.pageIdx + 4096 * j

/-- The addresses of the queued swap-in records. -/
def loggedAddresses (f : SwapFault) : List Nat :=
  (doSwapPage f).queued.filterMap fun work =>
    match work with
    | .swapIn pageAddr _ _ _ => some pageAddr
    | _ => none

/-- The addresses that the fault maps. -/
def mappedAddresses (f : SwapFault) : List Nat :=
  match (doSwapPage f).mapped with
  | some (start, nrPages) => (List.range nrPages).map fun j => start + pageSize * j
  | none => []

theorem LargeSwapIn.mappedAddresses_eq (s : LargeSwapIn) : mappedAddresses s.fault = s.pages := by
  rw [mappedAddresses, s.whole, LargeSwapIn.pages]
  simp only [pageSize, Nat.mul_comm]

theorem LargeSwapIn.loggedAddresses_eq (s : LargeSwapIn) :
    loggedAddresses s.fault =
      if s.fault.process = none then []
      else (List.range s.folio.nrPages).map fun i => s.fault.address + 4096 * i := by
  have hQueued := doSwapPage_folioInHand s.fault
  rw [s.inHand] at hQueued
  rw [loggedAddresses, hQueued, logSwapIn]
  cases s.fault.process with
  | none => rfl
  | some process =>
      rw [if_neg (Option.some_ne_none process), List.filterMap_map]
      exact congrFun (List.filterMap_eq_map (f := fun i => s.fault.address + 4096 * i)) _

/-- The logging loop counts from the faulting address. It queues the pages of
the folio, which are those that the fault maps, exactly when that address is
the first of them and the process is found. -/
theorem logged_pages_iff (s : LargeSwapIn) :
    ((loggedAddresses s.fault).Perm s.pages ∧ mappedAddresses s.fault = s.pages) ↔
      s.folio.pageIdx = 0 ∧ s.fault.process ≠ none := by
  have hStart := s.startsAbove
  have hLarge := s.large
  simp only [pageSize] at hStart
  rw [and_iff_left s.mappedAddresses_eq, s.loggedAddresses_eq, LargeSwapIn.pages]
  constructor
  · intro hPerm
    have hFound : s.fault.process ≠ none := by
      intro hNone
      rw [if_pos hNone] at hPerm
      have hLength := hPerm.length_eq
      rw [List.length_map, List.length_range, List.length_nil] at hLength
      omega
    refine ⟨?_, hFound⟩
    rw [if_neg hFound] at hPerm
    -- The first page of the folio has to be among the logged ones.
    have hFirst : s.fault.address - 4096 * s.folio.pageIdx + 4096 * 0 ∈
        (List.range s.folio.nrPages).map fun i => s.fault.address + 4096 * i :=
      hPerm.mem_iff.mpr (List.mem_map.mpr ⟨0, List.mem_range.mpr (by omega), rfl⟩)
    obtain ⟨i, _, hLogged⟩ := List.mem_map.mp hFirst
    omega
  · rintro ⟨hIdx, hFound⟩
    rw [if_neg hFound, hIdx, Nat.mul_zero, Nat.sub_zero]

/-- A folio of four pages is in the swap cache, and the fault is on its second
page. -/
def secondPageFault : LargeSwapIn where
  fault := { readInFault with
    address := 140000000004096, cached := some ⟨4, 1⟩, wholeRange := true }
  folio := ⟨4, 1⟩
  isCache := true
  inHand := rfl
  large := by decide
  inFolio := by decide
  aligned := by decide
  startsAbove := by decide
  whole := rfl

/-- The first page of the folio is not logged, and the page after its last is. -/
theorem secondPageFault_logged :
    ¬ ((loggedAddresses secondPageFault.fault).Perm secondPageFault.pages ∧
        mappedAddresses secondPageFault.fault = secondPageFault.pages) ∧
      loggedAddresses secondPageFault.fault =
        [140000000004096, 140000000008192, 140000000012288, 140000000016384] ∧
      mappedAddresses secondPageFault.fault =
        [140000000000000, 140000000004096, 140000000008192, 140000000012288] := by
  decide

end Host
