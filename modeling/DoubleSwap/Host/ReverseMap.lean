import DoubleSwap.Loggers.WorkQueue

/-! The reverse-mapping walk over an anonymous folio. The callbacks of the three
walks that end when nothing is mapped any more dispose of one page table entry
after the other; the walk itself records a swap-out when it ends so. -/
namespace Host

open Loggers

/-- The process that the lookup finds for an address space. -/
structure Process where
  mm : Nat
  name : Text
  startTime : Text
  deriving DecidableEq, Repr

/-- A present entry, or one of the other two that `page_vma_mapped_walk` yields. -/
inductive PteKind where
  | present | devicePrivate
  /-- The mapping was taken off the map count when the entry was made. -/
  | deviceExclusive
  deriving DecidableEq, Repr

/-- An entry that `page_vma_mapped_walk` yields, with the answers to the tests
that the callbacks make on it. -/
structure Pte where
  address : Nat
  kind : PteKind
  /-- `PageHWPoison`. -/
  hwPoison : Bool
  /-- `pte_unused`, in a VMA without userfaultfd. -/
  unused : Bool
  /-- `folio_test_swapbacked(folio) == folio_test_swapcache(folio)`. -/
  cacheAgrees : Bool
  swapbacked : Bool
  /-- Nothing else refers to the lazily freed page. -/
  discardable : Bool
  /-- `swap_duplicate` succeeded. -/
  swapDuplicated : Bool
  /-- `arch_unmap_one` succeeded. -/
  archUnmapped : Bool
  /-- The page is not exclusive, or `folio_try_share_anon_rmap_pte` succeeded. -/
  shareable : Bool
  deriving DecidableEq, Repr

/-- A huge entry, for which `pvmw.pte` is not set. -/
structure Pmd where
  /-- `unmap_huge_pmd_locked` dropped it. -/
  lazyFreed : Bool
  /-- `split_huge_pmd_address` left migration entries. -/
  frozen : Bool
  /-- `set_pmd_migration_entry` succeeded. -/
  migrated : Bool
  /-- The entries that it is split into. -/
  pages : List Pte
  deriving DecidableEq, Repr

/-- The entries of the folio in a VMA: a huge one has no others beside it. -/
inductive PageTable where
  | ptes (entries : List Pte)
  | pmd (entry : Pmd)
  deriving DecidableEq, Repr

/-- The entries of the folio, or those that its huge entry is split into. -/
def PageTable.pages : PageTable → List Pte
  | .ptes entries => entries
  | .pmd entry => entry.pages

/-- The number of times that the walk finds an entry without splitting one. -/
def PageTable.entryCount : PageTable → Nat
  | .ptes entries => entries.length
  | .pmd _ => 1

/-- What the entries contribute to `folio_mapcount`. -/
def PageTable.mapcount : PageTable → Nat
  | .ptes entries => entries.countP fun pte => pte.kind != .deviceExclusive
  | .pmd _ => 1

/-- A VMA on the chains of the `anon_vma`, with its address of the folio. -/
structure Vma where
  process : Process
  /-- `vma_address`. -/
  address : Nat
  /-- `VM_LOCKED`. -/
  locked : Bool
  temporaryStack : Bool
  table : PageTable
  deriving DecidableEq, Repr

/-- Where the pages of the folio are in the address spaces. -/
def Vma.places (vma : Vma) : List (Process × Nat) :=
  vma.table.pages.map fun pte => (vma.process, pte.address)

/-- An anonymous folio that is not a KSM one, with the VMAs on the chains of its
`anon_vma` in the order in which they are visited. -/
structure AnonFolio where
  nrPages : Nat
  /-- `folio_is_zone_device`. -/
  zoneDevice : Bool
  devicePrivate : Bool
  deviceCoherent : Bool
  vmas : List Vma
  nrPages_pos : 0 < nrPages
  /-- A page table has one entry for an address. -/
  places_nodup : (vmas.flatMap Vma.places).Nodup

/-- `folio_mapcount`. -/
def AnonFolio.mapcount (folio : AnonFolio) : Nat :=
  (folio.vmas.map fun vma => vma.table.mapcount).sum

/-- What becomes of an entry that no longer maps the folio. -/
inductive Fate where
  | swapped | migrated | deviceExclusive | poisoned | discarded
  deriving DecidableEq, Repr

/-- An entry that was disposed of, and how. -/
structure Removed where
  vma : Vma
  pte : Pte
  fate : Fate
  deriving DecidableEq, Repr

/-- The result of a callback, with the map count that it leaves. -/
structure RmapOne where
  ret : Bool
  mapcount : Int
  removed : List Removed
  deriving DecidableEq, Repr

/-- The loop of a callback over the entries of a VMA. `folio_remove_rmap_pte`
takes every entry that is disposed of off the map count, whatever its kind. -/
def walkPtes (vma : Vma) (fate : Pte → Option Fate) (mapcount : Int) : List Pte → RmapOne
  | [] => ⟨true, mapcount, []⟩
  | pte :: ptes =>
      match fate pte with
      | none => ⟨false, mapcount, []⟩
      | some f =>
          let rest := walkPtes vma fate (mapcount - 1) ptes
          { rest with removed := ⟨vma, pte, f⟩ :: rest.removed }

structure TtuFlags where
  ignoreMlock : Bool
  splitHugePmd : Bool
  hwpoison : Bool
  rmapLocked : Bool
  deriving DecidableEq, Repr

/-- An iteration of the loop of `try_to_unmap_one` on an entry that is not huge,
with `none` for `walk_abort`. -/
def unmapPte (flags : TtuFlags) (vma : Vma) (pte : Pte) : Option Fate :=
  if !flags.ignoreMlock && vma.locked then none
  else if pte.hwPoison && flags.hwpoison then some .poisoned
  else if pte.unused then some .discarded
  else if !pte.cacheAgrees then none
  else if !pte.swapbacked then if pte.discardable then some .discarded else none
  else if !pte.swapDuplicated then none
  else if !pte.archUnmapped then none
  else if !pte.shareable then none
  else some .swapped

/-- `try_to_unmap_one`. A huge entry that is split counts as many mappings as
it has pages from then on; callers set the flag for folios with huge entries. -/
def tryToUnmapOne (flags : TtuFlags) (vma : Vma) (mapcount : Int) : RmapOne :=
  match vma.table with
  | .ptes entries => walkPtes vma (unmapPte flags vma) mapcount entries
  | .pmd entry =>
      if !flags.ignoreMlock && vma.locked then ⟨false, mapcount, []⟩
      else if entry.lazyFreed then ⟨true, mapcount - 1, []⟩
      else if flags.splitHugePmd then
        walkPtes vma (unmapPte flags vma) (mapcount - 1 + entry.pages.length) entry.pages
      else ⟨false, mapcount, []⟩

/-- An iteration of the loop of `try_to_migrate_one` on an entry that is not huge. -/
def migratePte (devicePrivate : Bool) (pte : Pte) : Option Fate :=
  if devicePrivate then some .migrated
  else if pte.hwPoison then some .poisoned
  else if pte.unused then some .discarded
  else if !pte.archUnmapped then none
  else if !pte.shareable then none
  else some .migrated

/-- `try_to_migrate_one`, which splits before it walks. -/
def tryToMigrateOne (flags : TtuFlags) (devicePrivate : Bool) (vma : Vma) (mapcount : Int) :
    RmapOne :=
  match vma.table with
  | .ptes entries => walkPtes vma (migratePte devicePrivate) mapcount entries
  | .pmd entry =>
      if flags.splitHugePmd then
        if entry.frozen then ⟨true, mapcount - 1, []⟩
        else
          walkPtes vma (migratePte devicePrivate) (mapcount - 1 + entry.pages.length) entry.pages
      else if entry.migrated then ⟨true, mapcount - 1, []⟩
      else ⟨false, mapcount, []⟩

/-- An iteration of the loop of `page_make_device_exclusive_one`. -/
def makeDeviceExclusivePte (pte : Pte) : Option Fate :=
  if pte.kind != .present then none else some .deviceExclusive

/-- `page_make_device_exclusive_one`, whose caller has split huge entries. -/
def pageMakeDeviceExclusiveOne (vma : Vma) (mapcount : Int) : RmapOne :=
  match vma.table with
  | .ptes entries => walkPtes vma makeDeviceExclusivePte mapcount entries
  | .pmd _ => ⟨false, mapcount, []⟩

/-- The walks whose `done` is `folio_not_mapped`. -/
inductive RmapWalk where
  | tryToUnmap (flags : TtuFlags)
  | tryToMigrate (flags : TtuFlags)
  | folioMakeDeviceExclusive
  deriving DecidableEq, Repr

/-- The walk comes to `rmap_walk_anon` at all. -/
def RmapWalk.starts : RmapWalk → AnonFolio → Bool
  | .tryToUnmap _, _ => true
  | .tryToMigrate flags, folio =>
      !(flags.ignoreMlock || flags.hwpoison) &&
        !(folio.zoneDevice && (!folio.devicePrivate && !folio.deviceCoherent))
  | .folioMakeDeviceExclusive, _ => true

/-- The caller holds the lock of the `anon_vma`. -/
def RmapWalk.locked : RmapWalk → Bool
  | .tryToUnmap flags => flags.rmapLocked
  | .tryToMigrate flags => flags.rmapLocked
  | .folioMakeDeviceExclusive => false

/-- `rwc->invalid_vma`. -/
def RmapWalk.invalidVma : RmapWalk → Vma → Bool
  | .tryToUnmap _, _ => false
  | .tryToMigrate _, vma => vma.temporaryStack
  | .folioMakeDeviceExclusive, _ => false

/-- `rwc->rmap_one`. -/
def RmapWalk.rmapOne (walk : RmapWalk) (folio : AnonFolio) : Vma → Int → RmapOne :=
  match walk with
  | .tryToUnmap flags => tryToUnmapOne flags
  | .tryToMigrate flags => tryToMigrateOne flags folio.devicePrivate
  | .folioMakeDeviceExclusive => pageMakeDeviceExclusiveOne

/-- What a walk queues as `OUT H NONE`, and the entries it disposes of. -/
structure WalkResult where
  queued : List (Process × Nat)
  removed : List Removed
  deriving DecidableEq, Repr

/-- The logging loop. -/
def logSwapOut (nrPages : Nat) (vma : Vma) : List (Process × Nat) :=
  (List.range nrPages).map fun i => (vma.process, vma.address + 4096 * i)

/-- The loop of `rmap_walk_anon`. The folio is mapped while its map count is
positive. -/
def walkVmas (rmapOne : Vma → Int → RmapOne) (invalidVma : Vma → Bool) (nrPages : Nat) :
    Int → List Vma → WalkResult
  | _, [] => ⟨[], []⟩
  | mapcount, vma :: vmas =>
      if invalidVma vma then walkVmas rmapOne invalidVma nrPages mapcount vmas
      else
        let one := rmapOne vma mapcount
        if !one.ret then ⟨[], one.removed⟩
        else if one.mapcount < 1 then ⟨logSwapOut nrPages vma, one.removed⟩
        else
          let rest := walkVmas rmapOne invalidVma nrPages one.mapcount vmas
          ⟨rest.queued, one.removed ++ rest.removed⟩

/-- `rmap_walk_anon`. Unless the caller holds the lock, `folio_lock_anon_vma_read`
gives no `anon_vma` for a folio that is not mapped. -/
def rmapWalkAnon (walk : RmapWalk) (folio : AnonFolio) : WalkResult :=
  if !walk.locked && folio.mapcount == 0 then ⟨[], []⟩
  else walkVmas (walk.rmapOne folio) walk.invalidVma folio.nrPages folio.mapcount folio.vmas

/-- `try_to_unmap`, `try_to_migrate` or `folio_make_device_exclusive`. -/
def RmapWalk.run (walk : RmapWalk) (folio : AnonFolio) : WalkResult :=
  if walk.starts folio then rmapWalkAnon walk folio else ⟨[], []⟩

/-- The work items behind the queued pairs. -/
def WalkResult.work (result : WalkResult) : List LogWork :=
  result.queued.map fun (process, address) => .swapOut address process.name process.startTime

theorem tag_of_mem_work {result : WalkResult} {work : LogWork} (h : work ∈ result.work) :
    work.tag = "OUT H NONE".toList := by
  obtain ⟨⟨process, address⟩, _, rfl⟩ := List.mem_map.mp h
  rfl

def Removed.place (removed : Removed) : Process × Nat := (removed.vma.process, removed.pte.address)

/-- The page mappings that were replaced by swap entries. -/
def WalkResult.swappedPages (result : WalkResult) : List (Process × Nat) :=
  (result.removed.filter fun removed => removed.fate == .swapped).map Removed.place

end Host
