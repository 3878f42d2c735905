import DoubleSwap.Analyser.Collection

/-! Which qemu process the three host logs are filtered for. The start time is
selected once per log, from that log alone, so nothing ties the three choices
together when several virtual machines are traced. -/
namespace Analyser

open Text

/-- The three host logs, in the order in which they are read. -/
def hostLogs (dir : DataDir) : List (DataFile × Option TextFile) :=
  [(.data, dir.data), (.hostData, dir.hostData), (.dataIn, dir.dataIn)]

/-- The selections made before the first log that ends the function. -/
def selectionsFrom : List (DataFile × Option TextFile) → List (Int × List Text)
  | [] => []
  | (name, file) :: logs =>
      match selectLog name file with
      | .error _ => []
      | .ok selection => selection :: selectionsFrom logs

def selections (dir : DataDir) : List (Int × List Text) :=
  match guestLog dir.tempData with
  | .error _ => []
  | .ok _ => selectionsFrom (hostLogs dir)

/-- The host records that are put into `data_by_pfn` before the function
returns, with the start times that the dictionary itself forgets. -/
def addedHostRecords (dir : DataDir) : List HostRecord :=
  (selections dir).flatMap fun (selected, lines) => acceptedRecords selected lines

/-- Every two logs that are read and contribute a record have the same
earliest qemu start time. -/
def EarliestAgree (dir : DataDir) : Prop :=
  ∀ first ∈ selections dir, ∀ second ∈ selections dir,
    (∃ r ∈ sevenFieldRecords first.2, accepts first.1 r) →
    (∃ r ∈ sevenFieldRecords second.2, accepts second.1 r) →
    earliest first.2 = earliest second.2

theorem selectionsFrom_earliest (logs : List (DataFile × Option TextFile)) :
    ∀ selection ∈ selectionsFrom logs, earliest selection.2 = some selection.1 := by
  induction logs with
  | nil => simp [selectionsFrom]
  | cons log logs ih =>
      obtain ⟨name, file⟩ := log
      cases hSelect : selectLog name file with
      | error message => simp [selectionsFrom, hSelect]
      | ok selection =>
          simp only [selectionsFrom, hSelect, List.forall_mem_cons]
          exact ⟨(selectLog_eq_ok.mp hSelect).2.2, ih⟩

theorem selections_earliest (dir : DataDir) :
    ∀ selection ∈ selections dir, earliest selection.2 = some selection.1 := by
  rw [selections]
  cases guestLog dir.tempData with
  | error message => simp
  | ok guest => exact selectionsFrom_earliest _

theorem startTime_of_mem_accepted {selected : Int} {lines : List Text} {r : HostRecord}
    (h : r ∈ acceptedRecords selected lines) : r.startTime = selected := by
  have hTest := (List.mem_filter.mp h).2
  simp only [accepts, Bool.and_eq_true, decide_eq_true_eq] at hTest
  exact hTest.1.1.1.2

/-- When the reading stages succeed, the dictionary holds the guest records
followed by exactly the added host records. -/
theorem collect_addedHostRecords {dir : DataDir} {pages : DataByPfn} (h : collect dir = .ok pages) :
    ∃ guest, guestLog dir.tempData = .ok guest ∧
      pages = GroupDict.empty.appendAll (guest ++ (addedHostRecords dir).map HostRecord.keyed) := by
  rw [collect_eq, Fallible.map_eq_ok] at h
  obtain ⟨records, hCollected, rfl⟩ := h
  obtain ⟨guest, out, wp, into, hGuest, hOut, hWp, hInto, rfl⟩ := collected_eq_ok.mp hCollected
  obtain ⟨outTime, outLines, hOutSelect, rfl⟩ := hostLog_eq_ok.mp hOut
  obtain ⟨wpTime, wpLines, hWpSelect, rfl⟩ := hostLog_eq_ok.mp hWp
  obtain ⟨intoTime, intoLines, hIntoSelect, rfl⟩ := hostLog_eq_ok.mp hInto
  refine ⟨guest, hGuest, ?_⟩
  simp [addedHostRecords, selections, hGuest, hostLogs, selectionsFrom, hOutSelect, hWpSelect,
    hIntoSelect]

/-- The added host records are those of one process exactly when the logs
that contribute agree on their earliest qemu start time. -/
theorem addedHostRecords_one_process_iff (dir : DataDir) :
    (∀ pages, collect dir = .ok pages → ∃ guest, guestLog dir.tempData = .ok guest ∧
      pages = GroupDict.empty.appendAll (guest ++ (addedHostRecords dir).map HostRecord.keyed)) ∧
    ((∀ r ∈ addedHostRecords dir, ∀ s ∈ addedHostRecords dir, r.startTime = s.startTime) ↔
      EarliestAgree dir) := by
  refine ⟨fun pages h => collect_addedHostRecords h, ?_⟩
  constructor
  · intro hSame first hFirst second hSecond hContributes hContributes'
    obtain ⟨r, hr, hTest⟩ := hContributes
    obtain ⟨s, hs, hTest'⟩ := hContributes'
    have hrAccepted : r ∈ acceptedRecords first.1 first.2 := List.mem_filter.mpr ⟨hr, hTest⟩
    have hsAccepted : s ∈ acceptedRecords second.1 second.2 := List.mem_filter.mpr ⟨hs, hTest'⟩
    have hTimes := hSame r (List.mem_flatMap.mpr ⟨first, hFirst, hrAccepted⟩)
      s (List.mem_flatMap.mpr ⟨second, hSecond, hsAccepted⟩)
    rw [startTime_of_mem_accepted hrAccepted, startTime_of_mem_accepted hsAccepted] at hTimes
    rw [selections_earliest dir first hFirst, selections_earliest dir second hSecond, hTimes]
  · intro hAgree r hr s hs
    obtain ⟨first, hFirst, hrAccepted⟩ := List.mem_flatMap.mp hr
    obtain ⟨second, hSecond, hsAccepted⟩ := List.mem_flatMap.mp hs
    have hEarliest := hAgree first hFirst second hSecond
      ⟨r, (List.mem_filter.mp hrAccepted).1, (List.mem_filter.mp hrAccepted).2⟩
      ⟨s, (List.mem_filter.mp hsAccepted).1, (List.mem_filter.mp hsAccepted).2⟩
    rw [selections_earliest dir first hFirst, selections_earliest dir second hSecond] at hEarliest
    rw [startTime_of_mem_accepted hrAccepted, startTime_of_mem_accepted hsAccepted]
    exact Option.some.inj hEarliest

/-- Two virtual machines: the one started first has no line in `data.txt`. -/
def twoMachines : DataDir where
  hgfile := none
  guestData := none
  tempData := some ⟨["140000000000000 OUT G* NONE 00:00:000000002\n".toList,
    "140000000000000 OUT G NONE 00:00:000000003\n".toList], true⟩
  data := some ⟨["140000000000000 OUT H NONE 00:00:000000001 qemu-system-x86 200\n".toList], true⟩
  hostData := some ⟨["150000000000000 IN H WP 00:00:000000001 qemu-system-x86 100\n".toList], true⟩
  dataIn := some ⟨["140000000000000 IN H NONE 00:00:000000004 qemu-system-x86 100\n".toList], true⟩

/-- The records of two machines end up in one dictionary, and the swap-out of
one and the swap-in of the other are counted as a double swap. -/
theorem twoMachines_mixed :
    ¬ (∀ r ∈ addedHostRecords twoMachines, ∀ s ∈ addedHostRecords twoMachines,
        r.startTime = s.startTime) ∧
      Message.total .swapSpace 1 ∈ (mergeAndSortFiles twoMachines).printed := by
  decide +kernel

end Analyser
