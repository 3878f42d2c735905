import DoubleSwap.Analyser.Classifier

/-! `merge_and_sort_files`: four logs are collected into one dictionary of
pages, each page is sorted by time and classified, and two listings and three
counts are produced. Every reading stage ends the function on its own errors. -/
namespace Analyser

open Text

/-- The files under `/usr/data` (and `/tmp/hgfile.txt`) that messages name. -/
inductive DataFile where
  | hgfile | guestData | tempData | data | hostData | dataIn | mergedData
  deriving DecidableEq, Repr

/-- The kinds of double swap that are counted. -/
inductive SwapKind where
  | swapSpace | swapCache | wp
  deriving DecidableEq, Repr

/-- The lines that the analyser prints. -/
inductive Message where
  /-- `Failed to open <path>.` -/
  | failedToOpen (file : DataFile)
  /-- `An error occurred while ...:` followed by the exception. -/
  | errorOccurred (file : DataFile) (error : PyError)
  /-- `hgpte is not properly initialized.` -/
  | hgpteNotInitialized
  /-- `No qemu-system-x86 process found.` -/
  | noQemuProcess
  /-- `Total number of double swaps (host ...): <count>` -/
  | total (kind : SwapKind) (count : Nat)
  deriving DecidableEq, Repr

/-- The two `except` clauses that end every stage. -/
def handle (file : DataFile) : PyError → Message
  | .fileNotFound => .failedToOpen file
  | error => .errorOccurred file error

/-- The files that the analyser reads. `none` is a missing file. -/
structure DataDir where
  hgfile : Option TextFile
  guestData : Option TextFile
  tempData : Option TextFile
  data : Option TextFile
  hostData : Option TextFile
  dataIn : Option TextFile
  deriving DecidableEq, Repr

/-- `data_by_pfn`. -/
abbrev DataByPfn := GroupDict Int Entry

/-- `data_by_pfn[pfn].append((timestamp, data_type))` for a line with a record. -/
def appendKeyed (pages : DataByPfn) (record : Option (Int × Entry)) : DataByPfn :=
  match record with
  | some (pfn, entry) => pages.append pfn entry
  | none => pages

def collectGuestLine (pages : DataByPfn) (line : Text) : Except PyError DataByPfn :=
  (parseLineGuest line).map (appendKeyed pages)

/-- The stage that reads `temp_data.txt`. -/
def readTempData (file : Option TextFile) (pages : DataByPfn) : Except Message DataByPfn :=
  (do (← readlines file).foldlM collectGuestLine pages).mapError (handle .tempData)

def collectHostLine (selected : Int) (pages : DataByPfn) (line : Text) : Except PyError DataByPfn :=
  (acceptLine selected line).map fun record => appendKeyed pages (record.map HostRecord.keyed)

/-- The stage that reads one host log. The three logs are treated alike, and
each call selects a start time of its own. -/
def readHostLog (name : DataFile) (file : Option TextFile) (pages : DataByPfn) :
    Except Message DataByPfn := do
  let lines ← (readlines file).mapError (handle name)
  match ← (filterQemuProcess lines).mapError (handle name) with
  | none => .error .noQemuProcess
  | some selected => (lines.foldlM (collectHostLine selected) pages).mapError (handle name)

/-- The four reading stages. -/
def collect (dir : DataDir) : Except Message DataByPfn := do
  let pages ← readTempData dir.tempData .empty
  let pages ← readHostLog .data dir.data pages
  let pages ← readHostLog .hostData dir.hostData pages
  readHostLog .dataIn dir.dataIn pages

/-- `sorted(data_by_pfn[pfn], key=lambda x: time_to_microseconds(x[0]))`: the
list that is handed to `contains_sequence`. -/
def sortedEntries (entries : List Entry) : Except PyError (List Entry) :=
  StableSort.sortByM (fun entry => timeToMicroseconds entry.timestamp) entries

/-- `f"{pfn} {data_type} {timestamp}\n"`. -/
def reportLine (pfn : Int) (entry : Entry) : Text :=
  intText pfn ++ ' ' :: entry.dataType ++ ' ' :: entry.timestamp ++ ['\n']

/-- The local variables of the writing stage. -/
structure Report where
  outfile : List Text
  outfile1 : List Text
  sequenceCount : Nat
  sequenceCache : Nat
  sequenceWp : Nat
  deriving DecidableEq, Repr

def Report.start : Report := ⟨[], [], 0, 0, 0⟩

/-- The `match contains_sequence(sorted_entries)` statement. -/
def Report.classified (report : Report) (pfn : Int) (entries : List Entry) : Report :=
  let written := report.outfile1 ++ entries.map (reportLine pfn)
  match containsSequence entries with
  | 1 => { report with outfile1 := written, sequenceCount := report.sequenceCount + 1 }
  | 2 => { report with outfile1 := written, sequenceCache := report.sequenceCache + 1 }
  | 3 => { report with outfile1 := written, sequenceWp := report.sequenceWp + 1 }
  | _ => report

/-- The listing of pages with at least four records. -/
def Report.merged (report : Report) (pfn : Int) (entries : List Entry) : Report :=
  if 4 ≤ entries.length then
    { report with outfile := report.outfile ++ entries.map (reportLine pfn) }
  else report

/-- The loop over the pages, in increasing order. An exception ends the loop;
what was written before it stays in the files. -/
def writePages (pages : DataByPfn) (report : Report) : List Int → Report × Option PyError
  | [] => (report, none)
  | pfn :: pfns =>
      match sortedEntries (pages.get pfn) with
      | .error error => (report, some error)
      | .ok entries => writePages pages ((report.classified pfn entries).merged pfn entries) pfns

/-- What a call of `merge_and_sort_files` leaves behind. A listing is `none`
when its file was not opened for writing. -/
structure MergeOutcome where
  mergedData : Option (List Text)
  doubleSwap : Option (List Text)
  printed : List Message
  deriving DecidableEq, Repr

def Report.totals (report : Report) : List Message :=
  [.total .swapSpace report.sequenceCount, .total .swapCache report.sequenceCache,
    .total .wp report.sequenceWp]

/-- The writing stage. -/
def writeReport (pages : DataByPfn) : MergeOutcome :=
  match writePages pages .start (StableSort.sortBy id pages.keys) with
  | (report, none) => ⟨some report.outfile, some report.outfile1, report.totals⟩
  | (report, some error) =>
      ⟨some report.outfile, some report.outfile1, [.errorOccurred .mergedData error]⟩

/-- `merge_and_sort_files`. -/
def mergeAndSortFiles (dir : DataDir) : MergeOutcome :=
  match collect dir with
  | .error message => ⟨none, none, [message]⟩
  | .ok pages => writeReport pages

end Analyser
