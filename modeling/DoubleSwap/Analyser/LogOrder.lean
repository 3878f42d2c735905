import DoubleSwap.Analyser.ProcessSelection
import DoubleSwap.Analyser.PageOrder

/-! Independence of the order of the lines. The kernel work items append their
lines in any order; when the time keys of a page are distinct, the sorted page
is determined by its records, and so is everything that is reported. -/
namespace Analyser

open Text

/-- The same lines in another order. -/
def SameLines : Option TextFile → Option TextFile → Prop
  | none, none => True
  | some first, some second => first.lines.Perm second.lines ∧ first.decodes = second.decodes
  | _, _ => False

/-- Two directories whose four logs differ in the order of their lines only. -/
structure SameLogs (first second : DataDir) : Prop where
  tempData : SameLines first.tempData second.tempData
  data : SameLines first.data second.data
  hostData : SameLines first.hostData second.hostData
  dataIn : SameLines first.dataIn second.dataIn

/-- A guest line with a page, a type and a readable time stamp. -/
def wellFormedGuest (line : Text) : Bool :=
  match parseLineGuest line with
  | .ok (some (_, entry)) => validStamp entry
  | _ => false

/-- A host line with all its fields and a readable time stamp. -/
def wellFormedHost (line : Text) : Bool :=
  match parseLine line with
  | .ok (some r) => validStamp r.keyed.2
  | _ => false

def linesOf (file : Option TextFile) : List Text := (file.map TextFile.lines).getD []

structure WellFormedLogs (dir : DataDir) : Prop where
  tempData : ∀ line ∈ linesOf dir.tempData, wellFormedGuest line = true
  data : ∀ line ∈ linesOf dir.data, wellFormedHost line = true
  hostData : ∀ line ∈ linesOf dir.hostData, wellFormedHost line = true
  dataIn : ∀ line ∈ linesOf dir.dataIn, wellFormedHost line = true

/-- The record of a guest line, for a line that parses. -/
def guestRecordOf (line : Text) : Option (Int × Entry) := (parseLineGuest line).toOption.join

def hostFileRecords (file : Option TextFile) : List (Int × Entry) :=
  ((linesOf file).filterMap recordOf).map HostRecord.keyed

/-- Every record of the four logs, of whatever process. -/
def fileRecords (dir : DataDir) : List (Int × Entry) :=
  (linesOf dir.tempData).filterMap guestRecordOf ++ hostFileRecords dir.data ++
    hostFileRecords dir.hostData ++ hostFileRecords dir.dataIn

/-- No two records of one page have equal time keys. -/
def DistinctKeys (records : List (Int × Entry)) : Prop :=
  records.Pairwise fun first second => first.1 = second.1 →
    timeToMicroseconds first.2.timestamp ≠ timeToMicroseconds second.2.timestamp

theorem min?_perm {first second : List Int} (h : first.Perm second) :
    first.min? = second.min? := by
  induction h with
  | nil => rfl
  | cons x _ ih => rw [List.min?_cons, List.min?_cons, ih]
  | swap x y l =>
      simp only [List.min?_cons]
      cases l.min? with
      | none => simp [min_comm]
      | some z => simp [min_left_comm]
  | trans _ _ ihFirst ihSecond => exact ihFirst.trans ihSecond

/-- The least start time does not depend on the order of the lines. -/
theorem earliest_perm {first second : List Text} (h : first.Perm second) :
    earliest first = earliest second :=
  min?_perm (((h.filterMap recordOf).filter _).map HostRecord.startTime)

/-- Nor do the records that are accepted, but for their order. -/
theorem acceptedRecords_perm {first second : List Text} (h : first.Perm second) (selected : Int) :
    (acceptedRecords selected first).Perm (acceptedRecords selected second) :=
  ((h.filter _).filterMap recordOf).filter _

/-- A well-formed line of the host is a record with a readable stamp. -/
theorem recordOf_of_wellFormed {line : Text} (h : wellFormedHost line = true) :
    ∃ r, parseLine line = .ok (some r) ∧ validStamp r.keyed.2 = true := by
  rw [wellFormedHost] at h
  split at h
  · next r hParse => exact ⟨r, hParse, h⟩
  · cases h

/-- So is one of the guest. -/
theorem guestRecord_of_wellFormed {line : Text} (h : wellFormedGuest line = true) :
    ∃ pfn entry, parseLineGuest line = .ok (some (pfn, entry)) ∧ validStamp entry = true := by
  rw [wellFormedGuest] at h
  split at h
  · next pfn entry hParse => exact ⟨pfn, entry, hParse, h⟩
  · cases h

open Fallible (SameUpToOrder)

theorem readlines_sameLines {first second : Option TextFile} (h : SameLines first second) :
    SameUpToOrder (readlines first) (readlines second) := by
  cases first with
  | none =>
      cases second with
      | none => exact rfl
      | some second => exact h.elim
  | some first =>
      cases second with
      | none => exact h.elim
      | some second =>
          simp only [readlines, ← h.2]
          split_ifs
          · exact h.1
          · exact rfl

theorem linesOf_of_readlines {file : Option TextFile} {lines : List Text}
    (h : readlines file = .ok lines) : linesOf file = lines := by
  obtain ⟨log, rfl, _, rfl⟩ := readlines_eq_ok.mp h
  rfl

/-- Reordering a well-formed host log changes neither the selected start time
nor the records, and a log that ends the function still does. -/
theorem hostLog_sameLines {name : DataFile} {first second : Option TextFile}
    (hSame : SameLines first second)
    (hFormed : ∀ line ∈ linesOf first, wellFormedHost line = true) :
    SameUpToOrder (hostLog name first) (hostLog name second) := by
  have hRead := (readlines_sameLines hSame).mapError (handle name)
  cases hFirst : readlines first with
  | error e =>
      cases hSecond : readlines second with
      | error e' =>
          rw [hFirst, hSecond] at hRead
          simp only [hostLog, selectLog, hFirst, hSecond]
          exact hRead
      | ok other =>
          rw [hFirst, hSecond] at hRead
          exact hRead.elim
  | ok lines =>
      cases hSecond : readlines second with
      | error e' =>
          rw [hFirst, hSecond] at hRead
          exact hRead.elim
      | ok others =>
          rw [hFirst, hSecond] at hRead
          have hPerm : lines.Perm others := hRead
          rw [linesOf_of_readlines hFirst] at hFormed
          have hReads : ∀ line ∈ lines, ∃ value, parseLine line = .ok value := by
            intro line hLine
            obtain ⟨r, hParse, _⟩ := recordOf_of_wellFormed (hFormed line hLine)
            exact ⟨some r, hParse⟩
          obtain ⟨parsed, hParsed⟩ := Fallible.mapM_isOk_iff.mpr hReads
          obtain ⟨parsed', hParsed', _⟩ := Fallible.mapM_perm hPerm hParsed
          simp only [hostLog, selectLog, hFirst, hSecond, Except.mapError, bind, Except.bind,
            hParsed, hParsed', earliest_perm hPerm]
          cases earliest others with
          | none => exact rfl
          | some selected => exact acceptedRecords_perm hPerm selected

/-- The guest log is read in the same way, whatever the order of its lines. -/
theorem guestLog_sameLines {first second : Option TextFile} (hSame : SameLines first second)
    (hFormed : ∀ line ∈ linesOf first, wellFormedGuest line = true) :
    SameUpToOrder (guestLog first) (guestLog second) := by
  refine ((readlines_sameLines hSame).mapError _).bind fun lines others hLines hPerm => ?_
  rw [linesOf_of_readlines (Fallible.mapError_eq_ok.mp hLines)] at hFormed
  have hParses : ∀ line ∈ lines, ∃ value, parseLineGuest line = .ok value := by
    intro line hLine
    obtain ⟨pfn, entry, hParse, _⟩ := guestRecord_of_wellFormed (hFormed line hLine)
    exact ⟨_, hParse⟩
  exact ((SameUpToOrder.mapM hPerm hParses).mapError _).bind fun _ _ _ h => h.filterMap id

/-- The collected records of reordered logs are reordered. -/
theorem collected_sameLogs {first second : DataDir} (hSame : SameLogs first second)
    (hFormed : WellFormedLogs first) : SameUpToOrder (collected first) (collected second) := by
  refine (guestLog_sameLines hSame.tempData hFormed.tempData).bind fun _ _ _ hGuest => ?_
  refine (hostLog_sameLines hSame.data hFormed.data).bind fun _ _ _ hOut => ?_
  refine (hostLog_sameLines hSame.hostData hFormed.hostData).bind fun _ _ _ hWp => ?_
  refine (hostLog_sameLines hSame.dataIn hFormed.dataIn).bind fun _ _ _ hInto => ?_
  exact hGuest.append (((hOut.append hWp).append hInto).map HostRecord.keyed)

/-- The collecting stages only drop records of the files. -/
theorem hostLog_sublist {name : DataFile} {file : Option TextFile} {rs : List HostRecord}
    (h : hostLog name file = .ok rs) :
    (rs.map HostRecord.keyed).Sublist (hostFileRecords file) := by
  obtain ⟨selected, lines, hSelect, rfl⟩ := hostLog_eq_ok.mp h
  rw [hostFileRecords, linesOf_of_readlines (selectLog_eq_ok.mp hSelect).1]
  exact ((List.filter_sublist).trans
    ((List.filter_sublist).filterMap recordOf)).map HostRecord.keyed

/-- What is read of the guest log is what its lines say, one by one. -/
theorem guestLog_eq {file : Option TextFile} {records : List (Int × Entry)}
    (h : guestLog file = .ok records) : records = (linesOf file).filterMap guestRecordOf := by
  obtain ⟨lines, parsed, hRead, hParsed, rfl⟩ := guestLog_eq_ok.mp h
  rw [linesOf_of_readlines hRead]
  exact Fallible.reduceOption_of_mapM hParsed

/-- Every collected record stands in one of the files. -/
theorem collected_sublist {dir : DataDir} {records : List (Int × Entry)}
    (h : collected dir = .ok records) : records.Sublist (fileRecords dir) := by
  obtain ⟨guest, out, wp, into, hGuest, hOut, hWp, hInto, rfl⟩ := collected_eq_ok.mp h
  rw [guestLog_eq hGuest, fileRecords, List.map_append, List.map_append, ← List.append_assoc,
    ← List.append_assoc]
  exact (((List.Sublist.refl _).append (hostLog_sublist hOut)).append
    (hostLog_sublist hWp)).append (hostLog_sublist hInto)

theorem validStamp_of_mem_hostFileRecords {file : Option TextFile}
    (h : ∀ line ∈ linesOf file, wellFormedHost line = true) :
    ∀ record ∈ hostFileRecords file, validStamp record.2 = true := by
  intro record hRecord
  obtain ⟨r, hr, rfl⟩ := List.mem_map.mp hRecord
  obtain ⟨line, hLine, hOf⟩ := List.mem_filterMap.mp hr
  obtain ⟨found, hParse, hValid⟩ := recordOf_of_wellFormed (h line hLine)
  have hEq : found = r := by
    rw [recordOf, hParse] at hOf
    exact Option.some.inj hOf
  exact hEq ▸ hValid

theorem validStamp_of_mem_fileRecords {dir : DataDir} (h : WellFormedLogs dir) :
    ∀ record ∈ fileRecords dir, validStamp record.2 = true := by
  intro record hRecord
  simp only [fileRecords, List.mem_append] at hRecord
  rcases hRecord with ((hGuest | hOut) | hWp) | hInto
  · obtain ⟨line, hLine, hOf⟩ := List.mem_filterMap.mp hGuest
    obtain ⟨pfn, entry, hParse, hValid⟩ := guestRecord_of_wellFormed (h.tempData line hLine)
    have hEq : (pfn, entry) = record := by
      rw [guestRecordOf, hParse] at hOf
      exact Option.some.inj hOf
    exact hEq ▸ hValid
  · exact validStamp_of_mem_hostFileRecords h.data record hOut
  · exact validStamp_of_mem_hostFileRecords h.hostData record hWp
  · exact validStamp_of_mem_hostFileRecords h.dataIn record hInto

/-- The entries of one page, in the order of the collected records. -/
def pageEntries (records : List (Int × Entry)) (pfn : Int) : List Entry :=
  (records.filter (fun record => record.1 = pfn)).map Prod.snd

/-- The dictionary has the records of a page under the page. -/
theorem get_collected (records : List (Int × Entry)) (pfn : Int) :
    (GroupDict.empty.appendAll records).get pfn = pageEntries records pfn := by
  rw [GroupDict.get_appendAll]
  rfl

/-- With distinct keys a page sorts to the same list from either order. -/
theorem sortedEntries_pageEntries_eq {first second : List (Int × Entry)}
    (hPerm : first.Perm second) (hValid : ∀ record ∈ first, validStamp record.2 = true)
    (hDistinct : DistinctKeys first) (pfn : Int) :
    sortedEntries (pageEntries first pfn) = sortedEntries (pageEntries second pfn) := by
  have hPage : (pageEntries first pfn).Perm (pageEntries second pfn) :=
    (hPerm.filter _).map Prod.snd
  have hFirst : ∀ entry ∈ pageEntries first pfn, validStamp entry = true := by
    intro entry hEntry
    obtain ⟨record, hRecord, rfl⟩ := List.mem_map.mp hEntry
    exact hValid record (List.mem_filter.mp hRecord).1
  have hSecond : ∀ entry ∈ pageEntries second pfn, validStamp entry = true :=
    fun entry hEntry => hFirst entry (hPage.mem_iff.mpr hEntry)
  have hKeys : (pageEntries first pfn).Pairwise (fun a b => stampKey a ≠ stampKey b) := by
    rw [pageEntries, List.pairwise_map, List.pairwise_filter]
    refine List.Pairwise.imp_of_mem ?_ hDistinct
    intro a b ha hb hDiffer haPage hbPage hKey
    have hSamePage : a.1 = b.1 := (of_decide_eq_true haPage).trans (of_decide_eq_true hbPage).symm
    apply hDiffer hSamePage
    rw [timeToMicroseconds_of_valid (hValid a ha), timeToMicroseconds_of_valid (hValid b hb), hKey]
  rw [sortedEntries_of_valid hFirst, sortedEntries_of_valid hSecond,
    StableSort.sortBy_eq_of_perm hPage hKeys]

/-- The report depends on the sorted records of the pages only. -/
theorem writePages_congr {first second : DataByPfn}
    (h : ∀ pfn, sortedEntries (first.get pfn) = sortedEntries (second.get pfn))
    (report : Report) (pfns : List Int) :
    writePages first report pfns = writePages second report pfns := by
  induction pfns generalizing report with
  | nil => rfl
  | cons pfn pfns ih =>
      rw [writePages, writePages, h pfn]
      cases sortedEntries (second.get pfn) with
      | error e => rfl
      | ok entries => exact ih _

theorem mem_keys_collected (records : List (Int × Entry)) (pfn : Int) :
    pfn ∈ (GroupDict.empty.appendAll records).keys ↔ pfn ∈ records.map Prod.fst := by
  rw [GroupDict.mem_keys_appendAll]
  simp

/-- Everything that is written and printed depends on the records of each
page as a set only. -/
theorem writeReport_eq_of_perm {first second : List (Int × Entry)} (hPerm : first.Perm second)
    (hValid : ∀ record ∈ first, validStamp record.2 = true) (hDistinct : DistinctKeys first) :
    writeReport (GroupDict.empty.appendAll first) =
      writeReport (GroupDict.empty.appendAll second) := by
  have hKeys : StableSort.sortBy id (GroupDict.empty.appendAll first).keys =
      StableSort.sortBy id (GroupDict.empty.appendAll second).keys := by
    apply GroupDict.sorted_keys_eq
    intro pfn
    rw [mem_keys_collected, mem_keys_collected]
    exact (hPerm.map Prod.fst).mem_iff
  have hPages (pfn : Int) : sortedEntries ((GroupDict.empty.appendAll first).get pfn) =
      sortedEntries ((GroupDict.empty.appendAll second).get pfn) := by
    rw [get_collected, get_collected]
    exact sortedEntries_pageEntries_eq hPerm hValid hDistinct pfn
  rw [writeReport, writeReport, hKeys, writePages_congr hPages]

/-- For well-formed logs with distinct time keys on every page, the order of
the lines inside the files has no effect on the listings and the counts. -/
theorem mergeAndSortFiles_sameLogs {first second : DataDir} (hSame : SameLogs first second)
    (hFormed : WellFormedLogs first) (hDistinct : DistinctKeys (fileRecords first)) :
    mergeAndSortFiles first = mergeAndSortFiles second := by
  have hCollected := collected_sameLogs hSame hFormed
  rw [mergeAndSortFiles, mergeAndSortFiles, collect_eq, collect_eq]
  cases hFirst : collected first with
  | error e =>
      cases hSecond : collected second with
      | error e' =>
          rw [hFirst, hSecond] at hCollected
          rw [show e = e' from hCollected]
      | ok others =>
          rw [hFirst, hSecond] at hCollected
          exact hCollected.elim
  | ok records =>
      cases hSecond : collected second with
      | error e' =>
          rw [hFirst, hSecond] at hCollected
          exact hCollected.elim
      | ok others =>
          rw [hFirst, hSecond] at hCollected
          have hSublist := collected_sublist hFirst
          exact writeReport_eq_of_perm hCollected
            (fun record hRecord => validStamp_of_mem_fileRecords hFormed record
              (hSublist.subset hRecord))
            (hDistinct.sublist hSublist)

/-- A file and the same file read backwards. -/
theorem sameLines_reversed (file : Option TextFile) :
    SameLines file (file.map fun file => { file with lines := file.lines.reverse }) := by
  cases file with
  | none => trivial
  | some file => exact ⟨(List.reverse_perm file.lines).symm, rfl⟩

theorem sameLines_refl (file : Option TextFile) : SameLines file file := by
  cases file with
  | none => trivial
  | some file => exact ⟨List.Perm.refl file.lines, rfl⟩

/-- One page with the four records of a double swap. -/
def oneDoubleSwap : DataDir where
  hgfile := none
  guestData := none
  tempData := some ⟨["140000000000000 OUT G* NONE 00:00:000000002\n".toList,
    "140000000000000 OUT G NONE 00:00:000000004\n".toList], true⟩
  data := some ⟨["140000000000000 OUT H NONE 00:00:000000001 qemu-system-x86 100\n".toList,
    "140000000004096 OUT H NONE 00:00:000000001 qemu-system-x86 100\n".toList], true⟩
  hostData := some ⟨["150000000000000 IN H WP 00:00:000000001 qemu-system-x86 100\n".toList], true⟩
  dataIn := some ⟨["140000000000000 IN H NONE 00:00:000000003 qemu-system-x86 100\n".toList,
    "140000000000000 IN H NONE 00:00:000000009 bash 90\n".toList], true⟩

/-- The same logs with every file read backwards. -/
def oneDoubleSwapReversed : DataDir where
  hgfile := none
  guestData := none
  tempData := oneDoubleSwap.tempData.map fun file => { file with lines := file.lines.reverse }
  data := oneDoubleSwap.data.map fun file => { file with lines := file.lines.reverse }
  hostData := oneDoubleSwap.hostData
  dataIn := oneDoubleSwap.dataIn.map fun file => { file with lines := file.lines.reverse }

theorem oneDoubleSwap_reversed :
    mergeAndSortFiles oneDoubleSwap = mergeAndSortFiles oneDoubleSwapReversed ∧
      Message.total .swapSpace 1 ∈ (mergeAndSortFiles oneDoubleSwap).printed := by
  refine ⟨mergeAndSortFiles_sameLogs ?_ ?_ ?_, by decide +kernel⟩
  · exact ⟨sameLines_reversed _, sameLines_reversed _, sameLines_refl _, sameLines_reversed _⟩
  · exact ⟨by decide +kernel, by decide +kernel, by decide +kernel, by decide +kernel⟩
  · unfold DistinctKeys
    decide +kernel

end Analyser
