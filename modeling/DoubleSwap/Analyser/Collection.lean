import DoubleSwap.Analyser.Merge

/-! What the reading stages collect. Each stage either ends the function or
appends a list of records that is computed from its own file alone, so
`data_by_pfn` is one list of records, grouped by page. -/
namespace Analyser

open Text

/-- The record of a line, for a line that parses. -/
def recordOf (line : Text) : Option HostRecord := (parseLine line).toOption.join

/-- The start times that `filter_qemu_process` compares. -/
def qemuStartTimes (lines : List Text) : List Int :=
  ((lines.filterMap recordOf).filter (fun r => r.processName = qemuName)).map HostRecord.startTime

/-- The earliest start time of a qemu record of the log. -/
def earliest (lines : List Text) : Option Int := (qemuStartTimes lines).min?

/-- The records of the lines of exactly seven fields. -/
def sevenFieldRecords (lines : List Text) : List HostRecord :=
  (lines.filter (fun line => (words (strip line)).length = 7)).filterMap recordOf

/-- The records that pass the filter of the collecting loop. -/
def acceptedRecords (selected : Int) (lines : List Text) : List HostRecord :=
  (sevenFieldRecords lines).filter (accepts selected)

/-- The start time that is selected for a host log, with the lines of the log,
or the message that ends the function there. -/
def selectLog (name : DataFile) (file : Option TextFile) : Except Message (Int × List Text) := do
  let lines ← (readlines file).mapError (handle name)
  let _ ← (lines.mapM parseLine).mapError (handle name)
  match earliest lines with
  | none => .error .noQemuProcess
  | some selected => .ok (selected, lines)

/-- The records that one host log contributes. -/
def hostLog (name : DataFile) (file : Option TextFile) : Except Message (List HostRecord) :=
  (selectLog name file).map fun (selected, lines) => acceptedRecords selected lines

/-- The records that `temp_data.txt` contributes. -/
def guestLog (file : Option TextFile) : Except Message (List (Int × Entry)) := do
  let lines ← (readlines file).mapError (handle .tempData)
  let records ← (lines.mapM parseLineGuest).mapError (handle .tempData)
  return records.reduceOption

theorem selectLog_eq_ok {name : DataFile} {file : Option TextFile} {selected : Int}
    {lines : List Text} :
    selectLog name file = .ok (selected, lines) ↔
      readlines file = .ok lines ∧ (∃ parsed, lines.mapM parseLine = .ok parsed) ∧
        earliest lines = some selected := by
  simp only [selectLog, Fallible.bind_eq_ok, Fallible.mapError_eq_ok]
  constructor
  · rintro ⟨read, hRead, parsed, hParsed, hSelected⟩
    cases hEarliest : earliest read with
    | none =>
        rw [hEarliest] at hSelected
        cases hSelected
    | some time =>
        rw [hEarliest] at hSelected
        cases hSelected
        exact ⟨hRead, ⟨parsed, hParsed⟩, hEarliest⟩
  · rintro ⟨hRead, ⟨parsed, hParsed⟩, hEarliest⟩
    exact ⟨lines, hRead, parsed, hParsed, by rw [hEarliest]⟩

theorem hostLog_eq_ok {name : DataFile} {file : Option TextFile} {records : List HostRecord} :
    hostLog name file = .ok records ↔
      ∃ selected lines, selectLog name file = .ok (selected, lines) ∧
        acceptedRecords selected lines = records := by
  rw [hostLog, Fallible.map_eq_ok, Prod.exists]

theorem guestLog_eq_ok {file : Option TextFile} {records : List (Int × Entry)} :
    guestLog file = .ok records ↔
      ∃ lines parsed, readlines file = .ok lines ∧ lines.mapM parseLineGuest = .ok parsed ∧
        parsed.reduceOption = records := by
  simp only [guestLog, Fallible.bind_eq_ok, Fallible.mapError_eq_ok, Fallible.pure_eq_ok,
    exists_and_left]

private theorem foldl_filterQemuStep_some (parsed : List (Option HostRecord)) (time : Int) :
    parsed.foldl filterQemuStep (some time) =
      some (((parsed.reduceOption.filter (fun r => r.processName = qemuName)).map
        HostRecord.startTime).foldl min time) := by
  induction parsed generalizing time with
  | nil => rfl
  | cons record parsed ih =>
      cases record with
      | none => simpa [filterQemuStep, List.reduceOption] using ih time
      | some r =>
          by_cases hName : r.processName = qemuName
          · have hStep : filterQemuStep (some time) (some r) = some (min time r.startTime) := by
              simp only [filterQemuStep, hName, ↓reduceIte]
              split_ifs with hLess
              · rw [min_eq_right hLess.le]
              · rw [min_eq_left (not_lt.mp hLess)]
            rw [List.foldl_cons, hStep, ih]
            simp [List.reduceOption, hName]
          · simpa [filterQemuStep, List.reduceOption, hName] using ih time

/-- The dictionary loop computes a minimum. -/
theorem foldl_filterQemuStep (parsed : List (Option HostRecord)) :
    parsed.foldl filterQemuStep none =
      ((parsed.reduceOption.filter (fun r => r.processName = qemuName)).map
        HostRecord.startTime).min? := by
  induction parsed with
  | nil => rfl
  | cons record parsed ih =>
      cases record with
      | none => simpa [filterQemuStep, List.reduceOption] using ih
      | some r =>
          by_cases hName : r.processName = qemuName
          · have hStep : filterQemuStep none (some r) = some r.startTime := by
              simp [filterQemuStep, hName]
            have hTimes : (((some r :: parsed).reduceOption.filter
                (fun r => r.processName = qemuName)).map HostRecord.startTime) =
                r.startTime :: (parsed.reduceOption.filter
                  (fun r => r.processName = qemuName)).map HostRecord.startTime := by
              simp [List.reduceOption, hName]
            rw [List.foldl_cons, hStep, foldl_filterQemuStep_some, hTimes, List.min?_cons']
          · simpa [filterQemuStep, List.reduceOption, hName] using ih

/-- `filter_qemu_process` raises on a bad line and otherwise selects the
earliest start time. -/
theorem filterQemuProcess_eq (lines : List Text) :
    filterQemuProcess lines = (lines.mapM parseLine).map (fun _ => earliest lines) := by
  have hLoop : filterQemuProcess lines =
      (lines.mapM parseLine).map (fun parsed => parsed.foldl filterQemuStep none) :=
    Fallible.foldlM_map_eq parseLine filterQemuStep lines none
  rw [hLoop]
  cases hParsed : lines.mapM parseLine with
  | error e => rfl
  | ok parsed =>
      simp only [Except.map, foldl_filterQemuStep, Fallible.reduceOption_of_mapM hParsed]
      rfl

theorem acceptedRecords_cons_of_seven {line : Text} (h : (words (strip line)).length = 7)
    (selected : Int) (lines : List Text) :
    acceptedRecords selected (line :: lines) =
      ((recordOf line).filter (accepts selected)).toList ++ acceptedRecords selected lines := by
  simp only [acceptedRecords, sevenFieldRecords, List.filter_cons, h, decide_true, ↓reduceIte]
  cases hRecord : recordOf line with
  | none => simp [hRecord]
  | some r =>
      by_cases hTest : accepts selected r = true
      · simp [hRecord, Option.filter, hTest]
      · simp [hRecord, Option.filter, hTest]

theorem acceptedRecords_cons_of_not_seven {line : Text} (h : (words (strip line)).length ≠ 7)
    (selected : Int) (lines : List Text) :
    acceptedRecords selected (line :: lines) = acceptedRecords selected lines := by
  simp only [acceptedRecords, sevenFieldRecords, List.filter_cons, h, decide_false]
  rfl

/-- After a successful selection the collecting loop cannot raise. -/
theorem mapM_acceptLine {lines : List Text} {parsed : List (Option HostRecord)}
    (h : lines.mapM parseLine = .ok parsed) (selected : Int) :
    ∃ accepted, lines.mapM (acceptLine selected) = .ok accepted ∧
      accepted.reduceOption = acceptedRecords selected lines := by
  induction lines generalizing parsed with
  | nil => exact ⟨[], rfl, rfl⟩
  | cons line lines ih =>
      obtain ⟨value, rest, hLine, hRest, rfl⟩ := Fallible.mapM_cons_ok.mp h
      obtain ⟨accepted, hAccepted, hRecords⟩ := ih hRest
      have hRecord : recordOf line = value := by rw [recordOf, hLine]; rfl
      by_cases hSeven : (words (strip line)).length = 7
      · have hHead : acceptLine selected line = .ok (value.filter (accepts selected)) := by
          rw [acceptLine, if_pos hSeven, hLine]
          rfl
        refine ⟨value.filter (accepts selected) :: accepted,
          Fallible.mapM_cons_ok.mpr ⟨_, _, hHead, hAccepted, rfl⟩, ?_⟩
        rw [acceptedRecords_cons_of_seven hSeven, hRecord, ← hRecords]
        cases value.filter (accepts selected) with
        | none => simp [List.reduceOption]
        | some r => simp [List.reduceOption]
      · have hHead : acceptLine selected line = .ok none := by rw [acceptLine, if_neg hSeven]
        refine ⟨none :: accepted, Fallible.mapM_cons_ok.mpr ⟨_, _, hHead, hAccepted, rfl⟩, ?_⟩
        rw [acceptedRecords_cons_of_not_seven hSeven, ← hRecords]
        simp [List.reduceOption]

theorem foldl_appendKeyed (pages : DataByPfn) (values : List (Option (Int × Entry))) :
    values.foldl appendKeyed pages = pages.appendAll values.reduceOption := by
  induction values generalizing pages with
  | nil => rfl
  | cons value values ih =>
      rw [List.foldl_cons, ih]
      cases value with
      | none => rw [List.reduceOption_cons_of_none]; rfl
      | some pair => rw [List.reduceOption_cons_of_some]; rfl

/-- A host stage appends the records of its own log. -/
theorem readHostLog_eq (name : DataFile) (file : Option TextFile) (pages : DataByPfn) :
    readHostLog name file pages =
      (hostLog name file).map (fun rs => pages.appendAll (rs.map HostRecord.keyed)) := by
  rw [readHostLog, hostLog, selectLog]
  cases readlines file with
  | error e => rfl
  | ok lines =>
      simp only [Except.mapError, bind, Except.bind, filterQemuProcess_eq]
      cases hParsed : lines.mapM parseLine with
      | error e => rfl
      | ok parsed =>
          simp only [Except.map]
          cases earliest lines with
          | none => rfl
          | some selected =>
              obtain ⟨accepted, hAccepted, hRecords⟩ := mapM_acceptLine hParsed selected
              have hLoop : lines.foldlM (collectHostLine selected) pages = .ok (pages.appendAll
                  ((acceptedRecords selected lines).map HostRecord.keyed)) := by
                unfold collectHostLine
                rw [Fallible.foldlM_map_eq (acceptLine selected) _ lines pages, hAccepted,
                  Except.map, ← List.foldl_map (f := Option.map HostRecord.keyed),
                  foldl_appendKeyed, List.reduceOption_map, hRecords]
              simp only [hLoop]

/-- The first stage appends the records of `temp_data.txt`. -/
theorem readTempData_eq (file : Option TextFile) (pages : DataByPfn) :
    readTempData file pages = (guestLog file).map pages.appendAll := by
  rw [readTempData, guestLog]
  cases readlines file with
  | error e => rfl
  | ok lines =>
      have hLoop : lines.foldlM collectGuestLine pages =
          (lines.mapM parseLineGuest).map (fun rs => rs.foldl appendKeyed pages) :=
        Fallible.foldlM_map_eq parseLineGuest appendKeyed lines pages
      simp only [bind, Except.bind, Except.mapError, hLoop]
      cases lines.mapM parseLineGuest with
      | error e => rfl
      | ok records =>
          simp only [Except.map, foldl_appendKeyed]
          rfl

/-- All collected records, in the order of the appends. -/
def collected (dir : DataDir) : Except Message (List (Int × Entry)) := do
  let guest ← guestLog dir.tempData
  let out ← hostLog .data dir.data
  let wp ← hostLog .hostData dir.hostData
  let into ← hostLog .dataIn dir.dataIn
  return guest ++ (out ++ wp ++ into).map HostRecord.keyed

theorem collected_eq_ok {dir : DataDir} {records : List (Int × Entry)} :
    collected dir = .ok records ↔
      ∃ guest out wp into, guestLog dir.tempData = .ok guest ∧ hostLog .data dir.data = .ok out ∧
        hostLog .hostData dir.hostData = .ok wp ∧ hostLog .dataIn dir.dataIn = .ok into ∧
        guest ++ (out ++ wp ++ into).map HostRecord.keyed = records := by
  simp only [collected, Fallible.bind_eq_ok, Fallible.pure_eq_ok, exists_and_left]

/-- The four reading stages group one list of records by page. -/
theorem collect_eq (dir : DataDir) :
    collect dir = (collected dir).map GroupDict.empty.appendAll := by
  simp only [collect, collected, readTempData_eq, readHostLog_eq, bind, Except.bind]
  cases guestLog dir.tempData with
  | error e => rfl
  | ok guest =>
      cases hostLog .data dir.data with
      | error e => rfl
      | ok out =>
          cases hostLog .hostData dir.hostData with
          | error e => rfl
          | ok wp =>
              cases hostLog .dataIn dir.dataIn with
              | error e => rfl
              | ok into =>
                  simp only [Except.map, pure, Except.pure, List.map_append,
                    GroupDict.appendAll_append]

end Analyser
