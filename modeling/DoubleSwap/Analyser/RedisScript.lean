import DoubleSwap.Analyser.Collection

/-! The analyser of a single traced process, `redis_script.py`. Its parsers,
its classifier and its writing stage are word for word those of the analyser of
virtual machines and are shared here; it reads other files and filters less. -/
namespace Analyser

open Text

namespace RedisScript

/-- The files that the process analyser reads. -/
structure DataDir where
  guestData : Option TextFile
  data : Option TextFile
  dataIn : Option TextFile
  deriving DecidableEq, Repr

/-- The stage that reads `guest_data.txt`. -/
def readGuestData (file : Option TextFile) (pages : DataByPfn) : Except Message DataByPfn :=
  (do (← readlines file).foldlM collectGuestLine pages).mapError (handle .guestData)

/-- `timestamp and data_type`. -/
def accepts (r : HostRecord) : Bool := r.timestamp ≠ [] && r.dataType ≠ []

/-- The record that the collecting loop takes from a line. Any process is
taken, with any start time and any address. -/
def acceptLine (line : Text) : Except PyError (Option HostRecord) :=
  if (words (strip line)).length = 7 then (parseLine line).map fun record => record.filter accepts
  else .ok none

def collectLine (pages : DataByPfn) (line : Text) : Except PyError DataByPfn :=
  (acceptLine line).map fun record => appendKeyed pages (record.map HostRecord.keyed)

/-- The stage that reads one of the two host logs. -/
def readLog (name : DataFile) (file : Option TextFile) (pages : DataByPfn) :
    Except Message DataByPfn :=
  (do (← readlines file).foldlM collectLine pages).mapError (handle name)

/-- The three reading stages. -/
def collect (dir : DataDir) : Except Message DataByPfn := do
  let pages ← readGuestData dir.guestData .empty
  let pages ← readLog .data dir.data pages
  readLog .dataIn dir.dataIn pages

/-- `merge_and_sort_files`. -/
def mergeAndSortFiles (dir : DataDir) : MergeOutcome :=
  match collect dir with
  | .error message => ⟨none, none, [message]⟩
  | .ok pages => writeReport pages

end RedisScript

/-- The three counts, where they are printed. -/
def MergeOutcome.counts (outcome : MergeOutcome) : List (SwapKind × Nat) :=
  outcome.printed.filterMap fun message =>
    match message with
    | .total kind count => some (kind, count)
    | _ => none

/-- A host line of seven tokens, of the qemu process with the given start time
and with an address of fifteen digits. -/
def qemuRecord (startTime : Int) (line : Text) : Bool :=
  (words (strip line)).length = 7 &&
    match parseLine line with
    | .ok (some r) =>
        r.processName = qemuName && r.startTime = startTime && 10 ^ 14 ≤ r.pfn && r.pfn < 10 ^ 15
    | _ => false

/-- A host log of one qemu process. -/
structure QemuLog (startTime : Int) (lines : List Text) : Prop where
  nonempty : lines ≠ []
  record : ∀ line ∈ lines, qemuRecord startTime line = true

/-- A parsed record has a time stamp and a type. -/
theorem parseLine_nonempty {line : Text} {r : HostRecord} (h : parseLine line = .ok (some r)) :
    r.timestamp ≠ [] ∧ r.dataType ≠ [] := by
  rw [parseLine] at h
  split at h
  · next t0 t1 t2 t3 t4 t5 t6 rest hWords =>
      obtain ⟨pfn, _, hRest⟩ := Fallible.bind_eq_ok.mp h
      obtain ⟨startTime, _, hRecord⟩ := Fallible.bind_eq_ok.mp hRest
      obtain rfl := Option.some.inj (Fallible.pure_eq_ok.mp hRecord)
      have hStamp : IsWord t4 := isWord_of_mem_words (s := strip line) (by rw [hWords]; simp)
      exact ⟨hStamp.1, by simp [joinWords_cons_cons]⟩
  · cases h

/-- Both filters take a record of such a log. -/
theorem QemuLog.recordOf {startTime : Int} {lines : List Text} (h : QemuLog startTime lines) :
    ∀ line ∈ lines, ∃ r, (words (strip line)).length = 7 ∧ parseLine line = .ok (some r) ∧
      Analyser.recordOf line = some r ∧ r.processName = qemuName ∧ r.startTime = startTime ∧
      accepts startTime r = true ∧ RedisScript.accepts r = true := by
  intro line hLine
  have hRecord := h.record line hLine
  rw [qemuRecord, Bool.and_eq_true, decide_eq_true_eq] at hRecord
  obtain ⟨hSeven, hRecord⟩ := hRecord
  split at hRecord
  · next r hParse =>
      simp only [Bool.and_eq_true, decide_eq_true_eq] at hRecord
      obtain ⟨⟨⟨hName, hTime⟩, hLow⟩, hHigh⟩ := hRecord
      obtain ⟨hStamp, hType⟩ := parseLine_nonempty hParse
      have hDigits : (intText r.pfn).length = 15 := length_intText (k := 13) hLow hHigh
      refine ⟨r, hSeven, hParse, ?_, hName, hTime, ?_, ?_⟩
      · rw [Analyser.recordOf, hParse]
        rfl
      · simp [accepts, hName, hTime, hDigits, hStamp, hType]
      · simp [RedisScript.accepts, hStamp, hType]
  · cases hRecord

/-- The filter for one qemu process takes every record of such a log. -/
theorem QemuLog.acceptedRecords_eq {startTime : Int} {lines : List Text}
    (h : QemuLog startTime lines) :
    acceptedRecords startTime lines = lines.filterMap Analyser.recordOf := by
  have hSeven : lines.filter (fun line => (words (strip line)).length = 7) = lines := by
    apply List.filter_eq_self.mpr
    intro line hLine
    obtain ⟨_, hLength, _⟩ := h.recordOf line hLine
    exact decide_eq_true hLength
  rw [acceptedRecords, sevenFieldRecords, hSeven]
  apply List.filter_eq_self.mpr
  intro r hr
  obtain ⟨line, hLine, hRecord⟩ := List.mem_filterMap.mp hr
  obtain ⟨found, _, _, hFound, _, _, hAccepts, _⟩ := h.recordOf line hLine
  obtain rfl := Option.some.inj (hFound.symm.trans hRecord)
  exact hAccepts

theorem QemuLog.earliest_eq {startTime : Int} {lines : List Text} (h : QemuLog startTime lines) :
    earliest lines = some startTime := by
  have hTimes : ∀ time ∈ qemuStartTimes lines, time = startTime := by
    intro time hTime
    obtain ⟨r, hr, rfl⟩ := List.mem_map.mp hTime
    obtain ⟨line, hLine, hRecord⟩ := List.mem_filterMap.mp (List.mem_filter.mp hr).1
    obtain ⟨found, _, _, hFound, _, hStart, _⟩ := h.recordOf line hLine
    obtain rfl := Option.some.inj (hFound.symm.trans hRecord)
    exact hStart
  obtain ⟨line, hLine⟩ := List.exists_mem_of_ne_nil lines h.nonempty
  obtain ⟨r, _, _, hRecord, hName, hStart, _⟩ := h.recordOf line hLine
  have hMem : startTime ∈ qemuStartTimes lines := by
    refine List.mem_map.mpr ⟨r, List.mem_filter.mpr ⟨?_, decide_eq_true hName⟩, hStart⟩
    exact List.mem_filterMap.mpr ⟨line, hLine, hRecord⟩
  rw [earliest, List.min?_eq_some_iff]
  exact ⟨hMem, fun time hTime => (hTimes time hTime).ge⟩

theorem QemuLog.hostLog_eq {startTime : Int} {lines : List Text} (h : QemuLog startTime lines)
    (name : DataFile) :
    hostLog name (some ⟨lines, true⟩) = .ok (lines.filterMap Analyser.recordOf) := by
  have hParses : ∀ line ∈ lines, ∃ value, parseLine line = .ok value := by
    intro line hLine
    obtain ⟨r, _, hParse, _⟩ := h.recordOf line hLine
    exact ⟨some r, hParse⟩
  rw [hostLog_eq_ok]
  exact ⟨startTime, lines, selectLog_eq_ok.mpr ⟨rfl, Fallible.mapM_isOk_iff.mpr hParses,
    h.earliest_eq⟩, h.acceptedRecords_eq⟩

theorem RedisScript.readGuestData_eq (lines : List Text) (pages : DataByPfn) :
    RedisScript.readGuestData (some ⟨lines, true⟩) pages =
      ((lines.mapM parseLineGuest).map fun records => pages.appendAll records.reduceOption).mapError
        (handle .guestData) := by
  have hLoop : lines.foldlM collectGuestLine pages =
      (lines.mapM parseLineGuest).map (fun records => records.foldl appendKeyed pages) :=
    Fallible.foldlM_map_eq parseLineGuest appendKeyed lines pages
  rw [RedisScript.readGuestData]
  show (lines.foldlM collectGuestLine pages).mapError _ = _
  simp only [hLoop, foldl_appendKeyed]

/-- The process analyser takes every record of a log whose lines it accepts. -/
theorem RedisScript.readLog_eq {lines : List Text} (name : DataFile)
    (h : ∀ line ∈ lines, RedisScript.acceptLine line = .ok (Analyser.recordOf line))
    (pages : DataByPfn) :
    RedisScript.readLog name (some ⟨lines, true⟩) pages =
      .ok (pages.appendAll ((lines.filterMap Analyser.recordOf).map HostRecord.keyed)) := by
  have hLoop : lines.foldlM RedisScript.collectLine pages =
      .ok (pages.appendAll ((lines.filterMap Analyser.recordOf).map HostRecord.keyed)) := by
    unfold RedisScript.collectLine
    rw [Fallible.foldlM_map_eq RedisScript.acceptLine _ lines pages, Fallible.mapM_ok h,
      Except.map, ← List.foldl_map (f := Option.map HostRecord.keyed), foldl_appendKeyed,
      List.reduceOption_map]
    rw [List.reduceOption, List.filterMap_map]
    rfl
  rw [RedisScript.readLog]
  show (lines.foldlM RedisScript.collectLine pages).mapError _ = _
  rw [hLoop]
  rfl

theorem QemuLog.acceptLine_eq {startTime : Int} {lines : List Text} (h : QemuLog startTime lines) :
    ∀ line ∈ lines, RedisScript.acceptLine line = .ok (Analyser.recordOf line) := by
  intro line hLine
  obtain ⟨r, hSeven, hParse, hRecord, _, _, _, hAccepts⟩ := h.recordOf line hLine
  rw [RedisScript.acceptLine, if_pos hSeven, hParse, hRecord, Except.map, Option.filter,
    if_pos hAccepts]

/-- The records that both analysers group, for logs of one qemu process. -/
def oneProcessPages (d w i : List Text) (guest : List (Option (Int × Entry))) : DataByPfn :=
  GroupDict.empty.appendAll
    (guest.reduceOption ++ ((d ++ w ++ i).filterMap recordOf).map HostRecord.keyed)

section Agreement

variable {startTime : Int} {d w i : List Text} (g : List Text) (hData : QemuLog startTime d)
  (hHostData : QemuLog startTime w) (hDataIn : QemuLog startTime i)

include hData hHostData hDataIn

theorem collect_oneProcess (hgfile guestData : Option TextFile) :
    collect ⟨hgfile, guestData, some ⟨g, true⟩, some ⟨d, true⟩, some ⟨w, true⟩, some ⟨i, true⟩⟩ =
      ((g.mapM parseLineGuest).map (oneProcessPages d w i)).mapError (handle .tempData) := by
  simp only [collect_eq, collected, hData.hostLog_eq, hHostData.hostLog_eq, hDataIn.hostLog_eq,
    guestLog, readlines, if_true, bind, Except.bind, Except.mapError]
  cases g.mapM parseLineGuest with
  | error e => rfl
  | ok records =>
      simp only [oneProcessPages, List.filterMap_append, Except.map, pure, Except.pure]

theorem RedisScript.collect_oneProcess :
    RedisScript.collect ⟨some ⟨g, true⟩, some ⟨d, true⟩, some ⟨w ++ i, true⟩⟩ =
      ((g.mapM parseLineGuest).map (oneProcessPages d w i)).mapError (handle .guestData) := by
  have hBoth : ∀ line ∈ w ++ i, RedisScript.acceptLine line = .ok (recordOf line) := by
    intro line hLine
    rcases List.mem_append.mp hLine with hFirst | hSecond
    · exact hHostData.acceptLine_eq line hFirst
    · exact hDataIn.acceptLine_eq line hSecond
  simp only [RedisScript.collect, RedisScript.readGuestData_eq,
    RedisScript.readLog_eq _ hData.acceptLine_eq, RedisScript.readLog_eq _ hBoth]
  cases g.mapM parseLineGuest with
  | error e => rfl
  | ok records =>
      simp only [oneProcessPages, List.filterMap_append, List.map_append, Except.map,
        Except.mapError, bind, Except.bind, GroupDict.appendAll_append]

/-- On logs of one qemu process the two analysers report the same, whether the
host swap-ins are split over two files or follow each other in one. -/
theorem mergeAndSortFiles_redisScript (hgfile guestData : Option TextFile) :
    (mergeAndSortFiles ⟨hgfile, guestData, some ⟨g, true⟩, some ⟨d, true⟩, some ⟨w, true⟩,
        some ⟨i, true⟩⟩).mergedData =
      (RedisScript.mergeAndSortFiles ⟨some ⟨g, true⟩, some ⟨d, true⟩,
        some ⟨w ++ i, true⟩⟩).mergedData ∧
    (mergeAndSortFiles ⟨hgfile, guestData, some ⟨g, true⟩, some ⟨d, true⟩, some ⟨w, true⟩,
        some ⟨i, true⟩⟩).doubleSwap =
      (RedisScript.mergeAndSortFiles ⟨some ⟨g, true⟩, some ⟨d, true⟩,
        some ⟨w ++ i, true⟩⟩).doubleSwap ∧
    (mergeAndSortFiles ⟨hgfile, guestData, some ⟨g, true⟩, some ⟨d, true⟩, some ⟨w, true⟩,
        some ⟨i, true⟩⟩).counts =
      (RedisScript.mergeAndSortFiles ⟨some ⟨g, true⟩, some ⟨d, true⟩,
        some ⟨w ++ i, true⟩⟩).counts := by
  rw [mergeAndSortFiles, RedisScript.mergeAndSortFiles,
    collect_oneProcess g hData hHostData hDataIn,
    RedisScript.collect_oneProcess g hData hHostData hDataIn]
  cases g.mapM parseLineGuest with
  | error e =>
      -- Neither opens a listing; the messages name different files.
      refine ⟨rfl, rfl, ?_⟩
      cases e <;> rfl
  | ok records => exact ⟨rfl, rfl, rfl⟩

end Agreement

/-- The guest log and the three host logs of one machine. A swap-in that breaks
a shared mapping, the other swap-in and a guest record have the same key. -/
def equalKeys : List Text × List Text × List Text × List Text :=
  (["140000000000000 OUT G* NONE 0:0:2\n".toList, "140000000000000 OUT G NONE 0:0:3\n".toList],
    ["140000000000000 OUT H NONE 0:0:1 qemu-system-x86 7\n".toList],
    ["140000000000000 IN H WP 0:0:3 qemu-system-x86 7\n".toList],
    ["140000000000000 IN H NONE 0:0:3 qemu-system-x86 7\n".toList])

theorem equalKeys_redisScript :
    (mergeAndSortFiles ⟨none, none, some ⟨equalKeys.1, true⟩, some ⟨equalKeys.2.1, true⟩,
        some ⟨equalKeys.2.2.1, true⟩, some ⟨equalKeys.2.2.2, true⟩⟩).mergedData =
      (RedisScript.mergeAndSortFiles ⟨some ⟨equalKeys.1, true⟩, some ⟨equalKeys.2.1, true⟩,
        some ⟨equalKeys.2.2.1 ++ equalKeys.2.2.2, true⟩⟩).mergedData ∧
    (RedisScript.mergeAndSortFiles ⟨some ⟨equalKeys.1, true⟩, some ⟨equalKeys.2.1, true⟩,
        some ⟨equalKeys.2.2.1 ++ equalKeys.2.2.2, true⟩⟩).counts =
      [(.swapSpace, 1), (.swapCache, 0), (.wp, 0)] := by
  have hLog (lines : List Text) (hSome : lines ≠ []) (hAll : lines.all (qemuRecord 7) = true) :
      QemuLog 7 lines := ⟨hSome, List.all_eq_true.mp hAll⟩
  have hData := hLog equalKeys.2.1 (by decide) (by decide +kernel)
  have hHostData := hLog equalKeys.2.2.1 (by decide) (by decide +kernel)
  have hDataIn := hLog equalKeys.2.2.2 (by decide) (by decide +kernel)
  exact ⟨(mergeAndSortFiles_redisScript equalKeys.1 hData hHostData hDataIn none none).1,
    by decide +kernel⟩

end Analyser
