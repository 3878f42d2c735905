import DoubleSwap.Analyser.Collection
import DoubleSwap.Analyser.Translation

/-! What a failed translation leads to. The two stages share `temp_data.txt`
only, and the second one runs whatever became of the first; a report is
withheld only when the second stage cannot read its own inputs. -/
namespace Analyser

open Text

/-- The first tokens of the lines that are not blank. -/
def firstFields (lines : List Text) : List Text := lines.filterMap fun line => (words line).head?

def NumeralFrames (lines : List Text) : Prop :=
  ∀ field ∈ firstFields lines, ∃ pfn, parseInt field = some pfn

/-- The first frame of the log lies at or above the start of some slot. -/
def FirstFrameInSlot (hgpte : List HostGuestPte) (lines : List Text) : Prop :=
  ∀ field pfn, (firstFields lines).head? = some field → parseInt field = some pfn →
    ∃ slot ∈ hgpte, (slot.guestPhysAddr : Int) ≤ pfn * 4096

/-- There is a slot table, and the guest log can be translated to its end. -/
def Translatable (dir : DataDir) : Prop :=
  (getHgpte dir.hgfile).1 ≠ [] ∧ ∃ file, dir.guestData = some file ∧ file.decodes = true ∧
    NumeralFrames file.lines ∧ FirstFrameInSlot (getHgpte dir.hgfile).1 file.lines

def GuestLogReadable (file : Option TextFile) : Prop :=
  ∃ log, file = some log ∧ log.decodes = true ∧
    ∀ line ∈ log.lines, ∃ record, parseLineGuest line = .ok record

def HostLogReadable (file : Option TextFile) : Prop :=
  ∃ log, file = some log ∧ log.decodes = true ∧
    (∀ line ∈ log.lines, ∃ record, parseLine line = .ok record) ∧ qemuStartTimes log.lines ≠ []

/-- `temp_data.txt` is written anew, or what an earlier run left is readable. -/
def TempDataReadable (dir : DataDir) : Prop :=
  ((getHgpte dir.hgfile).1 ≠ [] ∧ dir.guestData ≠ none) ∨ GuestLogReadable dir.tempData

theorem firstFields_cons_blank {line : Text} (h : words line = []) (lines : List Text) :
    firstFields (line :: lines) = firstFields lines := by
  rw [firstFields, List.filterMap_cons_none (by rw [h]; rfl), firstFields]

theorem firstFields_cons {line t0 : Text} {rest : List Text} (h : words line = t0 :: rest)
    (lines : List Text) : firstFields (line :: lines) = t0 :: firstFields lines := by
  rw [firstFields, List.filterMap_cons_some (by rw [h]; rfl), firstFields]

theorem translateLine_blank {line : Text} (h : words line = []) (hgpte : List HostGuestPte)
    (state : Translator) : translateLine hgpte state line = .ok state := by
  rw [translateLine, h]

/-- A record whose frame is no number ends the translation. -/
theorem translateLine_not_numeral {line t0 : Text} {rest : List Text} (h : words line = t0 :: rest)
    (hFrame : parseInt t0 = none) (hgpte : List HostGuestPte) (state : Translator) :
    translateLine hgpte state line = .error (.valueError t0) := by
  simp only [translateLine, h, int, hFrame]
  rfl

/-- So does a first frame below every slot. -/
theorem translateLine_unbound {line t0 : Text} {rest : List Text} (h : words line = t0 :: rest)
    {pfn : Int} (hFrame : parseInt t0 = some pfn) {hgpte : List HostGuestPte} {state : Translator}
    (hFound : (lookupSlot hgpte (pfn * 4096)).or state.newPfn = none) :
    translateLine hgpte state line = .error .unboundLocal := by
  simp only [translateLine, h, int, hFrame, bind, Except.bind, hFound]

theorem translateLine_frame {line t0 : Text} {rest : List Text} (h : words line = t0 :: rest)
    {pfn newPfn : Int} (hFrame : parseInt t0 = some pfn) {hgpte : List HostGuestPte}
    {state : Translator} (hFound : (lookupSlot hgpte (pfn * 4096)).or state.newPfn = some newPfn) :
    translateLine hgpte state line =
      .ok ⟨some newPfn, state.outfile ++ [translatedLine newPfn rest]⟩ := by
  simp only [translateLine, h, int, hFrame, bind, Except.bind, hFound]
  rfl

/-- An iteration on a record that does not raise binds `newPfn` and writes it. -/
theorem translateLine_eq_ok {hgpte : List HostGuestPte} {state next : Translator}
    {line t0 : Text} {rest : List Text} (h : words line = t0 :: rest)
    (hStep : translateLine hgpte state line = .ok next) :
    ∃ pfn newPfn, parseInt t0 = some pfn ∧
      (lookupSlot hgpte (pfn * 4096)).or state.newPfn = some newPfn ∧
      next = ⟨some newPfn, state.outfile ++ [translatedLine newPfn rest]⟩ := by
  cases hFrame : parseInt t0 with
  | none =>
      rw [translateLine_not_numeral h hFrame] at hStep
      cases hStep
  | some pfn =>
      cases hFound : (lookupSlot hgpte (pfn * 4096)).or state.newPfn with
      | none =>
          rw [translateLine_unbound h hFrame hFound] at hStep
          cases hStep
      | some newPfn =>
          rw [translateLine_frame h hFrame hFound] at hStep
          cases hStep
          exact ⟨pfn, newPfn, rfl, hFound, rfl⟩

/-- A frame is not found if it is below every slot. -/
theorem lookupSlot_eq_none_iff (hgpte : List HostGuestPte) (pfnValue : Int) :
    lookupSlot hgpte pfnValue = none ↔ ¬ ∃ slot ∈ hgpte, (slot.guestPhysAddr : Int) ≤ pfnValue := by
  simp [lookupSlot]

/-- The loop reaches the end of the log exactly when every frame is a numeral
and the first one finds `newPfn` bound or binds it. -/
theorem translateLines_eq_none_iff (hgpte : List HostGuestPte) (state : Translator)
    (lines : List Text) :
    (translateLines hgpte state lines).2 = none ↔
      NumeralFrames lines ∧ (state.newPfn = none → FirstFrameInSlot hgpte lines) := by
  induction lines generalizing state with
  | nil => simp [translateLines, NumeralFrames, FirstFrameInSlot, firstFields]
  | cons line lines ih =>
      cases hWords : words line with
      | nil =>
          simp only [translateLines, translateLine_blank hWords, ih, NumeralFrames,
            FirstFrameInSlot, firstFields_cons_blank hWords]
      | cons t0 rest =>
          simp only [NumeralFrames, FirstFrameInSlot, firstFields_cons hWords,
            List.forall_mem_cons, List.head?_cons, Option.some.injEq]
          cases hFrame : parseInt t0 with
          | none => simp [translateLines, translateLine_not_numeral hWords hFrame]
          | some pfn =>
              cases hFound : (lookupSlot hgpte (pfn * 4096)).or state.newPfn with
              | none =>
                  obtain ⟨hLookup, hUnbound⟩ := Option.or_eq_none_iff.mp hFound
                  have hNoSlot := (lookupSlot_eq_none_iff hgpte _).mp hLookup
                  simp only [translateLines, translateLine_unbound hWords hFrame hFound, hUnbound,
                    reduceCtorEq, false_iff]
                  intro hAll
                  exact hNoSlot (hAll.2 trivial t0 pfn rfl hFrame)
              | some newPfn =>
                  simp only [translateLines, translateLine_frame hWords hFrame hFound, ih]
                  have hSlot : state.newPfn = none →
                      ∃ slot ∈ hgpte, (slot.guestPhysAddr : Int) ≤ pfn * 4096 := by
                    intro hUnbound
                    by_contra hNoSlot
                    rw [(lookupSlot_eq_none_iff hgpte _).mpr hNoSlot, hUnbound] at hFound
                    cases hFound
                  constructor
                  · intro hRest
                    refine ⟨⟨⟨pfn, rfl⟩, hRest.1⟩, ?_⟩
                    intro hUnbound field z hField hValue
                    subst hField
                    rw [hFrame] at hValue
                    cases hValue
                    exact hSlot hUnbound
                  · intro hAll
                    exact ⟨hAll.1.2, fun h => by cases h⟩

/-- The lines that the translating loop writes. -/
def IsTranslated (line : Text) : Prop :=
  ∃ newPfn rest, line = translatedLine newPfn rest ∧ ∀ w ∈ rest, IsWord w

theorem translateLine_outfile {hgpte : List HostGuestPte} {state next : Translator} {line : Text}
    (h : translateLine hgpte state line = .ok next)
    (hWritten : ∀ l ∈ state.outfile, IsTranslated l) : ∀ l ∈ next.outfile, IsTranslated l := by
  cases hWords : words line with
  | nil =>
      rw [translateLine_blank hWords] at h
      cases h
      exact hWritten
  | cons t0 rest =>
      obtain ⟨pfn, newPfn, _, _, rfl⟩ := translateLine_eq_ok hWords h
      intro l hl
      rcases List.mem_append.mp hl with hl | hl
      · exact hWritten l hl
      · refine ⟨newPfn, rest, List.mem_singleton.mp hl, ?_⟩
        intro w hw
        apply isWord_of_mem_words
        rw [hWords]
        exact List.mem_cons_of_mem _ hw

/-- Whatever was written when the translation ended, it was translated. -/
theorem translateLines_outfile (hgpte : List HostGuestPte) (state : Translator)
    (lines : List Text) (hWritten : ∀ l ∈ state.outfile, IsTranslated l) :
    ∀ l ∈ (translateLines hgpte state lines).1.outfile, IsTranslated l := by
  induction lines generalizing state with
  | nil => exact hWritten
  | cons line lines ih =>
      rw [translateLines]
      cases hStep : translateLine hgpte state line with
      | error e => exact hWritten
      | ok next => exact ih next (translateLine_outfile hStep hWritten)

/-- A translated line has its new frame in the place of the old one. -/
theorem words_translatedLine (newPfn : Int) {rest : List Text} (h : ∀ w ∈ rest, IsWord w) :
    words (translatedLine newPfn rest) = intText newPfn :: rest := by
  have hBreak : ∀ c ∈ ['\n'], isSpace c = true := by
    intro c hc
    rw [List.mem_singleton.mp hc]
    rfl
  rw [translatedLine, words_word_space (isWord_intText newPfn) (by decide),
    words_append_spaces (joinWords rest) ['\n'] hBreak, words_joinWords h]

/-- A line that the translating loop wrote never fails to parse. -/
theorem parseLineGuest_of_isTranslated {line : Text} (h : IsTranslated line) :
    ∃ record, parseLineGuest line = .ok record := by
  obtain ⟨newPfn, rest, rfl, hWords⟩ := h
  rw [parseLineGuest, words_strip, words_translatedLine newPfn hWords]
  split
  · next t0 t1 t2 t3 t4 _ hEq =>
      have hHead : intText newPfn = t0 := (List.cons.inj hEq).1
      subst hHead
      exact ⟨some (newPfn, ⟨t4, joinWords [t1, t2, t3]⟩), by simp [int, bind, Except.bind]; rfl⟩
  · exact ⟨none, rfl⟩

theorem getHgpte_printed {file : Option TextFile} (h : (getHgpte file).1 ≠ []) :
    (getHgpte file).2 = [] := by
  cases file with
  | none => exact absurd rfl h
  | some file =>
      simp only [getHgpte] at h ⊢
      cases hRead : readSlots file.decodes [] file.lines with
      | error e =>
          rw [hRead] at h
          exact absurd rfl h
      | ok entries => rfl

/-- Without a slot table, `process_data_file` stops before it opens a file. -/
theorem processDataFile_of_no_table {dir : DataDir} (h : (getHgpte dir.hgfile).1 = []) :
    (processDataFile dir).tempData = dir.tempData ∧ (processDataFile dir).whole = false := by
  have hPair : getHgpte dir.hgfile = ([], (getHgpte dir.hgfile).2) := by rw [← h]
  rw [processDataFile, hPair]
  simp [Translation.whole]

/-- With a table of slots the translation writes a new file, if the log can be
opened. -/
theorem processDataFile_of_table {dir : DataDir} (h : (getHgpte dir.hgfile).1 ≠ []) :
    processDataFile dir =
      match dir.guestData with
      | none => ⟨dir.tempData, [.failedToOpen .guestData]⟩
      | some file =>
          match translateLines (getHgpte dir.hgfile).1 .start file.lines with
          | (state, some error) => ⟨some ⟨state.outfile, true⟩, [.errorOccurred .guestData error]⟩
          | (state, none) =>
              ⟨some ⟨state.outfile, true⟩,
                if file.decodes then [] else [.errorOccurred .guestData .unicodeDecode]⟩ := by
  have hPrinted := getHgpte_printed h
  rw [processDataFile]
  split
  · next printed hPair => exact absurd (congrArg Prod.fst hPair) h
  · next hgpte printed hNonempty hPair =>
      rw [hPair] at hPrinted ⊢
      subst hPrinted
      rfl

/-- The whole log is translated exactly under the conditions on the inputs. -/
theorem whole_iff_translatable (dir : DataDir) :
    (processDataFile dir).whole = true ↔ Translatable dir := by
  by_cases hTable : (getHgpte dir.hgfile).1 = []
  · simp [(processDataFile_of_no_table hTable).2, Translatable, hTable]
  · rw [processDataFile_of_table hTable, Translatable]
    cases dir.guestData with
    | none => simp [Translation.whole]
    | some file =>
        have hWhole := translateLines_eq_none_iff (getHgpte dir.hgfile).1 .start file.lines
        simp only [Translator.start, true_implies] at hWhole
        simp only [ne_eq, hTable, not_false_eq_true, Option.some.injEq, exists_eq_left', true_and,
          ← hWhole, Translator.start]
        rcases translateLines (getHgpte dir.hgfile).1 ⟨none, []⟩ file.lines with ⟨state, error⟩
        cases error with
        | some e => simp [Translation.whole]
        | none =>
            cases file.decodes with
            | false => simp [Translation.whole]
            | true => simp [Translation.whole]

/-- The file is left alone or holds written lines only, so the next stage can
read it unless it was unreadable before and left alone. -/
theorem guestLogReadable_tempData_iff (dir : DataDir) :
    GuestLogReadable (processDataFile dir).tempData ↔ TempDataReadable dir := by
  by_cases hTable : (getHgpte dir.hgfile).1 = []
  · simp [(processDataFile_of_no_table hTable).1, TempDataReadable, hTable]
  · rw [processDataFile_of_table hTable, TempDataReadable]
    cases dir.guestData with
    | none => simp
    | some file =>
        have hWritten := translateLines_outfile (getHgpte dir.hgfile).1 .start file.lines
          (fun l hl => absurd hl List.not_mem_nil)
        have hReadable (state : Translator) (h : ∀ l ∈ state.outfile, IsTranslated l) :
            GuestLogReadable (some ⟨state.outfile, true⟩) :=
          ⟨_, rfl, rfl, fun line hLine => parseLineGuest_of_isTranslated (h line hLine)⟩
        simp only [ne_eq, hTable, not_false_eq_true, reduceCtorEq, and_self, true_or, iff_true]
        rcases hRun : translateLines (getHgpte dir.hgfile).1 .start file.lines with ⟨state, error⟩
        rw [hRun] at hWritten
        cases error with
        | some e => exact hReadable state hWritten
        | none => exact hReadable state hWritten

/-- Not a message with a count. -/
def NotTotal (message : Message) : Prop := ∀ kind count, message ≠ .total kind count

theorem handle_notTotal (file : DataFile) (error : PyError) : NotTotal (handle file error) := by
  intro kind count
  cases error with
  | fileNotFound => exact fun h => by cases h
  | unicodeDecode => exact fun h => by cases h
  | valueError literal => exact fun h => by cases h
  | indexError => exact fun h => by cases h
  | unboundLocal => exact fun h => by cases h

/-- The guest log is read unless a line of it raises an error. -/
theorem guestLog_isOk_iff (file : Option TextFile) :
    (∃ records, guestLog file = .ok records) ↔ GuestLogReadable file := by
  simp only [guestLog_eq_ok, readlines_eq_ok]
  constructor
  · rintro ⟨_, _, parsed, ⟨log, hLog, hDecodes, rfl⟩, hParsed, _⟩
    exact ⟨log, hLog, hDecodes, Fallible.mapM_isOk_iff.mp ⟨parsed, hParsed⟩⟩
  · rintro ⟨log, hLog, hDecodes, hParse⟩
    obtain ⟨parsed, hParsed⟩ := Fallible.mapM_isOk_iff.mpr hParse
    exact ⟨_, log.lines, parsed, ⟨log, hLog, hDecodes, rfl⟩, hParsed, rfl⟩

/-- So are the logs of the host. -/
theorem hostLog_isOk_iff (name : DataFile) (file : Option TextFile) :
    (∃ records, hostLog name file = .ok records) ↔ HostLogReadable file := by
  have hTimes (lines : List Text) : earliest lines = none ↔ qemuStartTimes lines = [] :=
    List.min?_eq_none_iff
  simp only [hostLog_eq_ok, selectLog_eq_ok, readlines_eq_ok]
  constructor
  · rintro ⟨_, selected, _, ⟨⟨log, hLog, hDecodes, rfl⟩, hParse, hEarliest⟩, _⟩
    refine ⟨log, hLog, hDecodes, Fallible.mapM_isOk_iff.mp hParse, ?_⟩
    intro hEmpty
    rw [(hTimes log.lines).mpr hEmpty] at hEarliest
    cases hEarliest
  · rintro ⟨log, hLog, hDecodes, hParse, hSome⟩
    obtain ⟨selected, hEarliest⟩ := Option.ne_none_iff_exists'.mp
      (fun hNone => hSome ((hTimes log.lines).mp hNone))
    exact ⟨_, selected, log.lines, ⟨⟨log, hLog, hDecodes, rfl⟩,
      Fallible.mapM_isOk_iff.mpr hParse, hEarliest⟩, rfl⟩

theorem guestLog_raises (file : Option TextFile) : Fallible.Raises NotTotal (guestLog file) := by
  rw [guestLog]
  apply (Fallible.raises_mapError (handle_notTotal _) _).bind
  intro lines
  apply (Fallible.raises_mapError (handle_notTotal _) _).bind
  intro records
  exact Fallible.raises_ok _

theorem hostLog_raises (name : DataFile) (file : Option TextFile) :
    Fallible.Raises NotTotal (hostLog name file) := by
  rw [hostLog, selectLog]
  apply Fallible.Raises.map
  apply (Fallible.raises_mapError (handle_notTotal name) _).bind
  intro lines
  apply (Fallible.raises_mapError (handle_notTotal name) _).bind
  intro parsed
  cases earliest lines with
  | none => exact Fallible.raises_error fun kind count h => by cases h
  | some selected => exact Fallible.raises_ok _

/-- The reading stages succeed exactly when the four logs are readable. -/
theorem collect_isOk_iff (dir : DataDir) :
    (∃ pages, collect dir = .ok pages) ↔
      GuestLogReadable dir.tempData ∧ HostLogReadable dir.data ∧ HostLogReadable dir.hostData ∧
        HostLogReadable dir.dataIn := by
  rw [← guestLog_isOk_iff, ← hostLog_isOk_iff .data, ← hostLog_isOk_iff .hostData,
    ← hostLog_isOk_iff .dataIn]
  simp only [collect_eq, Fallible.map_eq_ok, collected_eq_ok]
  constructor
  · rintro ⟨_, _, ⟨guest, out, wp, into, hGuest, hOut, hWp, hInto, _⟩, _⟩
    exact ⟨⟨guest, hGuest⟩, ⟨out, hOut⟩, ⟨wp, hWp⟩, ⟨into, hInto⟩⟩
  · rintro ⟨⟨guest, hGuest⟩, ⟨out, hOut⟩, ⟨wp, hWp⟩, ⟨into, hInto⟩⟩
    exact ⟨_, _, ⟨guest, out, wp, into, hGuest, hOut, hWp, hInto, rfl⟩, rfl⟩

/-- A failure to read is reported with a message that is not a count. -/
theorem collect_raises (dir : DataDir) : Fallible.Raises NotTotal (collect dir) := by
  rw [collect_eq, collected]
  apply Fallible.Raises.map
  apply (guestLog_raises _).bind
  intro guest
  apply (hostLog_raises _ _).bind
  intro out
  apply (hostLog_raises _ _).bind
  intro wp
  apply (hostLog_raises _ _).bind
  intro into
  exact Fallible.raises_ok _

/-- No listing of double swaps and no counts. -/
def MergeOutcome.Withheld (outcome : MergeOutcome) : Prop :=
  outcome.doubleSwap = none ∧ ∀ kind count, Message.total kind count ∉ outcome.printed

theorem writeReport_doubleSwap (pages : DataByPfn) : (writeReport pages).doubleSwap ≠ none := by
  rw [writeReport]
  split
  · exact Option.some_ne_none _
  · exact Option.some_ne_none _

/-- The report is withheld if and only if one of the four logs cannot be read. -/
theorem mergeAndSortFiles_withheld_iff (dir : DataDir) :
    (mergeAndSortFiles dir).Withheld ↔
      ¬ (GuestLogReadable dir.tempData ∧ HostLogReadable dir.data ∧
        HostLogReadable dir.hostData ∧ HostLogReadable dir.dataIn) := by
  rw [← collect_isOk_iff, mergeAndSortFiles]
  cases hCollect : collect dir with
  | error message =>
      simp only [reduceCtorEq, exists_false, not_false_eq_true, iff_true]
      refine ⟨rfl, ?_⟩
      intro kind count hMem
      exact collect_raises dir message hCollect kind count (List.mem_singleton.mp hMem).symm
  | ok pages =>
      simp only [Except.ok.injEq, exists_eq', not_true_eq_false, iff_false]
      exact fun h => writeReport_doubleSwap pages h.1

/-- After a translation that is not whole the report is withheld exactly when
the reading stages themselves have to stop: nothing passes the failure on. -/
theorem withheld_after_failed_translation_iff (dir : DataDir) :
    ((processDataFile dir).whole = false → (driver dir).Withheld) ↔
      Translatable dir ∨
        ¬ (TempDataReadable dir ∧ HostLogReadable dir.data ∧ HostLogReadable dir.hostData ∧
          HostLogReadable dir.dataIn) := by
  have hReport : (driver dir).Withheld ↔
      ¬ (TempDataReadable dir ∧ HostLogReadable dir.data ∧ HostLogReadable dir.hostData ∧
        HostLogReadable dir.dataIn) := by
    rw [driver, mergeAndSortFiles_withheld_iff, ← guestLogReadable_tempData_iff]
    rfl
  rw [hReport, ← whole_iff_translatable, ← Bool.not_eq_true, or_iff_not_imp_left]

/-- The directory of a run in which qemu left no slot log, with the
translation of an earlier run. -/
def staleTranslation : DataDir where
  hgfile := none
  guestData := some ⟨["34179687500 OUT G* NONE 00:00:000000002\n".toList], true⟩
  tempData := some ⟨["140000000000000 OUT G* NONE 00:00:000000002\n".toList,
    "140000000000000 OUT G NONE 00:00:000000003\n".toList], true⟩
  data := some ⟨["140000000000000 OUT H NONE 00:00:000000001 qemu-system-x86 100\n".toList], true⟩
  hostData := some ⟨["150000000000000 IN H WP 00:00:000000001 qemu-system-x86 100\n".toList], true⟩
  dataIn := some ⟨["140000000000000 IN H NONE 00:00:000000004 qemu-system-x86 100\n".toList], true⟩

/-- One whose guest log has a line that is no record after two good ones. -/
def partialTranslation : DataDir where
  hgfile := some ⟨["140000000000000 0 4096 140000000000000 3\n".toList], true⟩
  guestData := some ⟨["0 OUT G* NONE 00:00:000000002\n".toList,
    "0 OUT G NONE 00:00:000000003\n".toList, "OUT G* NONE\n".toList], true⟩
  tempData := none
  data := staleTranslation.data
  hostData := staleTranslation.hostData
  dataIn := staleTranslation.dataIn

theorem staleTranslation_reported :
    ¬ ((processDataFile staleTranslation).whole = false → (driver staleTranslation).Withheld) ∧
      ¬ ((processDataFile partialTranslation).whole = false →
        (driver partialTranslation).Withheld) := by
  constructor
  · intro h
    have hCount : Message.total .swapSpace 1 ∈ (driver staleTranslation).printed := by
      decide +kernel
    exact (h (by decide +kernel)).2 .swapSpace 1 hCount
  · intro h
    have hCount : Message.total .swapSpace 1 ∈ (driver partialTranslation).printed := by
      decide +kernel
    exact (h (by decide +kernel)).2 .swapSpace 1 hCount

end Analyser
