import DoubleSwap.Loggers.WorkQueue
import DoubleSwap.Analyser.OutsideFrames

/-! The records of the loggers as the parsers of the analyser read them. The
tags are three words, so a host record has seven fields and a guest record
five, and the translation rewrites the first of them only. -/
namespace Loggers

open Text Analyser

/-- The swaps that the host logs. -/
inductive HostEvent where
  | swapOut | swapIn (isCache : Bool) | swapInWp
  deriving DecidableEq, Repr

/-- The item that is queued for a swap of a page of a process. -/
def HostEvent.work (event : HostEvent) (pageAddr : Nat) (processName time : Text) : LogWork :=
  match event with
  | .swapOut => .swapOut pageAddr processName time
  | .swapIn isCache => .swapIn pageAddr processName time isCache
  | .swapInWp => .swapInWp pageAddr processName time

theorem HostEvent.line_work (event : HostEvent) (pageAddr : Nat) (processName time : Text)
    (ts : Timespec) :
    (event.work pageAddr processName time).line ts =
      snprintf 256
        (hostLine pageAddr (event.work pageAddr processName time).tag ts processName time) := by
  cases event with
  | swapOut => rfl
  | swapIn isCache => rfl
  | swapInWp => rfl

/-- Three words with single blanks between them, and short. -/
structure IsTag (tag : Text) : Prop where
  joinWords_words : joinWords (words tag) = tag
  length_words : (words tag).length = 3
  length_le : tag.length ≤ 11

/-- Every tag has three words. -/
theorem LogWork.isTag_tag (work : LogWork) : IsTag work.tag := by
  have hOfText (tag : Text) (h : joinWords (words tag) = tag ∧ (words tag).length = 3 ∧
      tag.length ≤ 11) : IsTag tag := ⟨h.1, h.2.1, h.2.2⟩
  cases work with
  | swapOut pageAddr processName time => exact hOfText "OUT H NONE".toList (by decide)
  | swapIn pageAddr processName time isCache =>
      cases isCache with
      | false => exact hOfText "IN H NONE".toList (by decide)
      | true => exact hOfText "IN H CACHE".toList (by decide)
  | swapInWp pageAddr processName time => exact hOfText "IN H WP".toList (by decide)
  | guestSwapOut pageAddr up =>
      cases up with
      | false => exact hOfText "OUT G NONE".toList (by decide)
      | true => exact hOfText "OUT G* NONE".toList (by decide)

theorem IsTag.exists_words {tag : Text} (h : IsTag tag) :
    ∃ t1 t2 t3, words tag = [t1, t2, t3] ∧ joinWords [t1, t2, t3] = tag := by
  obtain ⟨t1, t2, t3, hWords⟩ := List.length_eq_three.mp h.length_words
  exact ⟨t1, t2, t3, hWords, by rw [← hWords, h.joinWords_words]⟩

theorem length_stamp (ts : Timespec) : (stamp ts).length = 15 := by
  have hHours : (padded 2 ts.hours).length = 2 :=
    length_padded Nat.two_pos (by simp only [Timespec.hours]; omega)
  have hMinutes : (padded 2 ts.minutes).length = 2 :=
    length_padded Nat.two_pos (by simp only [Timespec.minutes]; omega)
  have hNanoseconds : (padded 9 ts.tvNsec).length = 9 :=
    length_padded (by decide) ts.nsec_lt
  simp only [stamp, List.length_append, List.length_cons, hHours, hMinutes, hNanoseconds]

theorem isWord_stamp (ts : Timespec) : IsWord (stamp ts) := by
  refine ⟨List.ne_nil_of_length_pos (by rw [length_stamp]; decide), ?_⟩
  have hDigits (width n : Nat) := (isNumeral_padded width n).isWord.2
  intro c hc
  simp only [stamp, List.mem_append, List.mem_cons] at hc
  rcases hc with hc | rfl | hc | rfl | hc
  · exact hDigits 2 ts.hours c hc
  · decide
  · exact hDigits 2 ts.minutes c hc
  · decide
  · exact hDigits 9 ts.tvNsec c hc

/-- A 64-bit number has at most twenty digits. -/
theorem length_decimal_le {n : Nat} (h : n < 2 ^ 64) : (decimal n).length ≤ 20 :=
  (Nat.length_toDigits_le_iff (by decide) (by decide)).mpr (h.trans_le (by decide))

theorem snprintf_of_length_lt {size : Nat} {s : Text} (h : s.length < size) :
    snprintf size s = s :=
  List.take_of_length_le (Nat.le_sub_one_of_lt h)

theorem isSpace_newline : ∀ c ∈ ['\n'], isSpace c = true := List.all_eq_true.mp rfl

theorem isWord_qemuName : IsWord qemuName := by
  have hNoSpace : (qemuName.all fun c => !isSpace c) = true := by decide
  refine ⟨by decide, fun c hc => ?_⟩
  rw [← Bool.not_eq_true']
  exact List.all_eq_true.mp hNoSpace c hc

/-- The words of a line of the host are its fields. -/
theorem words_hostLine (pageAddr : Nat) (tag : Text) (ts : Timespec) {processName time : Text}
    (hName : IsWord processName) (hTime : IsWord time) :
    words (hostLine pageAddr tag ts processName time) =
      decimal pageAddr :: (words tag ++ [stamp ts, processName, time]) := by
  have hBlank : isSpace ' ' = true := by decide
  rw [hostLine, words_word_space (isNumeral_decimal pageAddr).isWord hBlank,
    words_append_space tag _ hBlank, words_word_space (isWord_stamp ts) hBlank,
    words_word_space hName hBlank, words_append_spaces time _ isSpace_newline,
    words_singleton hTime]

/-- So are those of a line of the guest. -/
theorem words_guestLine (pageAddr : Nat) (tag : Text) (ts : Timespec) :
    words (guestLine pageAddr tag ts) = decimal pageAddr :: (words tag ++ [stamp ts]) := by
  have hBlank : isSpace ' ' = true := by decide
  rw [guestLine, words_word_space (isNumeral_decimal pageAddr).isWord hBlank,
    words_append_space tag _ hBlank, words_append_spaces (stamp ts) _ isSpace_newline,
    words_singleton (isWord_stamp ts)]

/-- A host record of a process with a short name and start time fits its buffer. -/
theorem length_hostLine_lt {pageAddr : Nat} (hAddr : pageAddr < 2 ^ 64) {tag : Text}
    (hTag : tag.length ≤ 11) (ts : Timespec) {processName time : Text}
    (hName : processName.length ≤ 15) (hTime : time.length ≤ 15) :
    (hostLine pageAddr tag ts processName time).length < 256 := by
  have hDigits := length_decimal_le hAddr
  simp only [hostLine, List.length_append, List.length_cons, List.length_nil, length_stamp]
  omega

/-- A line of the guest fits into the buffer. -/
theorem length_guestLine_lt {pageAddr : Nat} (hAddr : pageAddr < 2 ^ 64) {tag : Text}
    (hTag : tag.length ≤ 11) (ts : Timespec) : (guestLine pageAddr tag ts).length < 256 := by
  have hDigits := length_decimal_le hAddr
  simp only [guestLine, List.length_append, List.length_cons, List.length_nil, length_stamp]
  omega

/-- The record of a swap, for any process whose name is one short word. -/
theorem parseLine_work (event : HostEvent) {pageAddr : Nat} (hAddr : pageAddr < 2 ^ 64)
    (ts : Timespec) {processName time : Text} (hName : IsWord processName)
    (hNameLength : processName.length ≤ 15) (hTime : IsNumeral time)
    (hTimeLength : time.length ≤ 15) :
    let work := event.work pageAddr processName time
    work.line ts = hostLine pageAddr work.tag ts processName time ∧
      (words (strip (work.line ts))).length = 7 ∧
      parseLine (work.line ts) = .ok (some
        ⟨pageAddr, work.tag, stamp ts, processName, (Nat.ofDigitChars 10 time 0 : Nat)⟩) := by
  intro work
  have hTag := work.isTag_tag
  obtain ⟨t1, t2, t3, hTagWords, hJoin⟩ := hTag.exists_words
  have hLine : work.line ts = hostLine pageAddr work.tag ts processName time := by
    rw [HostEvent.line_work]
    exact snprintf_of_length_lt
      (length_hostLine_lt hAddr hTag.length_le ts hNameLength hTimeLength)
  have hWords := words_hostLine pageAddr work.tag ts hName hTime.isWord
  rw [hTagWords] at hWords
  refine ⟨hLine, ?_, ?_⟩
  · rw [hLine, words_strip, hWords]
    rfl
  · rw [hLine, parseLine, words_strip, hWords]
    simp only [List.cons_append, List.nil_append, Analyser.int, parseInt_decimal,
      List.getLast_singleton, parseInt_of_isNumeral hTime, bind, Except.bind, hJoin]
    rfl

/-- A line of the guest is read as its fields. -/
theorem parseLineGuest_guestLine (pageAddr : Nat) {tag : Text} (hTag : IsTag tag)
    (ts : Timespec) :
    parseLineGuest (guestLine pageAddr tag ts) = .ok (some (pageAddr, ⟨stamp ts, tag⟩)) := by
  obtain ⟨t1, t2, t3, hTagWords, hJoin⟩ := hTag.exists_words
  rw [parseLineGuest, words_strip, words_guestLine, hTagWords]
  simp only [List.cons_append, List.nil_append, Analyser.int, parseInt_decimal, bind, Except.bind,
    hJoin]
  rfl

/-- The translated record differs from the guest record in its page only. -/
theorem parseLineGuest_translatedLine (newPfn : Int) {tag : Text} (hTag : IsTag tag)
    (ts : Timespec) :
    parseLineGuest (translatedLine newPfn (words tag ++ [stamp ts])) =
      .ok (some (newPfn, ⟨stamp ts, tag⟩)) := by
  obtain ⟨t1, t2, t3, hTagWords, hJoin⟩ := hTag.exists_words
  have hRest : ∀ w ∈ words tag ++ [stamp ts], IsWord w := by
    intro w hw
    rcases List.mem_append.mp hw with hw | hw
    · exact isWord_of_mem_words hw
    · rw [List.mem_singleton.mp hw]
      exact isWord_stamp ts
  rw [parseLineGuest, words_strip, words_translatedLine newPfn hRest, hTagWords]
  simp only [List.cons_append, List.nil_append, Analyser.int, parseInt_intText, bind, Except.bind,
    hJoin]
  rfl

theorem line_guestSwapOut {pageAddr : Nat} (hAddr : pageAddr < 2 ^ 64) (up : Bool)
    (ts : Timespec) :
    (LogWork.guestSwapOut pageAddr up).line ts =
      guestLine pageAddr (LogWork.guestSwapOut pageAddr up).tag ts :=
  snprintf_of_length_lt (length_guestLine_lt hAddr (LogWork.isTag_tag _).length_le ts)

/-- A guest record that the translation gets past stands in the rewritten log,
after the records before it, with its tag and its stamp. -/
theorem processDataFile_guestLine {dir : DataDir} {before after : List Text} {decodes : Bool}
    {pageAddr : Nat} {tag : Text} (hTag : IsTag tag) {ts : Timespec}
    (hFile : dir.guestData = some ⟨before ++ guestLine pageAddr tag ts :: after, decodes⟩)
    (hReached : (translateLines (getHgpte dir.hgfile).1 .start
      (before ++ [guestLine pageAddr tag ts])).2 = none) :
    ∃ newPfn earlier written later,
      (processDataFile dir).tempData = some ⟨earlier ++ written :: later, true⟩ ∧
        earlier.length = recordCount before ∧
        parseLineGuest written = .ok (some (newPfn, ⟨stamp ts, tag⟩)) := by
  have hWords := words_guestLine pageAddr tag ts
  have hStart := translateLines_of_append _ _ hReached
  have hLine := hReached
  rw [translateLines_append _ _ hStart, translateLines] at hLine
  cases hStep : translateLine (getHgpte dir.hgfile).1
      (translateLines (getHgpte dir.hgfile).1 .start before).1 (guestLine pageAddr tag ts) with
  | error e =>
      rw [hStep] at hLine
      cases hLine
  | ok next =>
      obtain ⟨_, newPfn, _, _, rfl⟩ := translateLine_eq_ok hWords hStep
      obtain ⟨earlier, hEarlier, hCount⟩ := translateLines_extends _ .start before
      replace hEarlier : (translateLines _ .start before).1.outfile = earlier := hEarlier
      rw [hEarlier] at hStep
      obtain ⟨later, hLater, _⟩ := translateLines_extends (getHgpte dir.hgfile).1
        ⟨some newPfn, earlier ++ [translatedLine newPfn (words tag ++ [stamp ts])]⟩ after
      have hTable : (getHgpte dir.hgfile).1 ≠ [] := by
        intro hEmpty
        have hNone := translateLines_no_slots (before ++ [guestLine pageAddr tag ts])
        rw [← hEmpty, translateLines_append _ _ hStart, translateLines, hStep] at hNone
        exact List.append_ne_nil_of_right_ne_nil _ (List.cons_ne_nil _ _) hNone
      refine ⟨newPfn, earlier, _, later, ?_, hCount hStart,
        parseLineGuest_translatedLine newPfn hTag ts⟩
      rw [tempData_of_table hFile hTable, translateLines_append _ _ hStart, translateLines, hStep]
      show some (TextFile.mk (translateLines _ ⟨some newPfn, _⟩ after).1.outfile true) = _
      rw [hLater, List.append_assoc, List.singleton_append]

/-- Every record comes back from the parsers as it was handed to the logger: a
host record of the traced process, and a guest record both as it was written
and after its page was rewritten. -/
theorem records_come_back (event : HostEvent) {pageAddr : Nat} (hAddr : pageAddr < 2 ^ 64)
    (ts : Timespec) {time : Text} (hTime : IsNumeral time) (hLength : time.length ≤ 15)
    (up : Bool) :
    (let work := event.work pageAddr qemuName time
     (hostLine pageAddr work.tag ts qemuName time).length < 256 ∧
        work.line ts = hostLine pageAddr work.tag ts qemuName time ∧
        (words (strip (work.line ts))).length = 7 ∧
        parseLine (work.line ts) = .ok (some
          ⟨pageAddr, work.tag, stamp ts, qemuName, (Nat.ofDigitChars 10 time 0 : Nat)⟩)) ∧
    (let work := LogWork.guestSwapOut pageAddr up
     work.line ts = guestLine pageAddr work.tag ts ∧
        parseLineGuest (work.line ts) = .ok (some (pageAddr, ⟨stamp ts, work.tag⟩)) ∧
        ∀ (dir : DataDir) (before after : List Text) (decodes : Bool),
          dir.guestData = some ⟨before ++ work.line ts :: after, decodes⟩ →
          (translateLines (getHgpte dir.hgfile).1 .start (before ++ [work.line ts])).2 = none →
          ∃ newPfn earlier written later,
            (processDataFile dir).tempData = some ⟨earlier ++ written :: later, true⟩ ∧
              earlier.length = recordCount before ∧
              parseLineGuest written = .ok (some (newPfn, ⟨stamp ts, work.tag⟩))) := by
  have hNameLength : qemuName.length ≤ 15 := by decide
  have hHostTag := (event.work pageAddr qemuName time).isTag_tag
  have hGuestTag := (LogWork.guestSwapOut pageAddr up).isTag_tag
  refine ⟨⟨length_hostLine_lt hAddr hHostTag.length_le ts hNameLength hLength,
    parseLine_work event hAddr ts isWord_qemuName hNameLength hTime hLength⟩,
    line_guestSwapOut hAddr up ts, ?_, ?_⟩
  · rw [line_guestSwapOut hAddr]
    exact parseLineGuest_guestLine pageAddr hGuestTag ts
  · intro dir before after decodes hFile hReached
    rw [line_guestSwapOut hAddr] at hFile hReached
    exact processDataFile_guestLine hGuestTag hFile hReached

/-- A guest with one slot, and the end of the swap-out of its frame 5. -/
def oneSwapOut : DataDir where
  hgfile := some ⟨["140000000000000 0 1073741824 1\n".toList], true⟩
  guestData := some ⟨[(LogWork.guestSwapOut 5 false).line secondInstant], true⟩
  tempData := none
  data := none
  hostData := none
  dataIn := none

theorem oneSwapOut_comes_back :
    parseLine ((HostEvent.work .swapInWp 5 qemuName "123456789012345".toList).line secondInstant) =
        .ok (some ⟨5, "IN H WP".toList, "22:13:000000020".toList, qemuName, 123456789012345⟩) ∧
      ∃ newPfn earlier written later,
        (processDataFile oneSwapOut).tempData = some ⟨earlier ++ written :: later, true⟩ ∧
          earlier.length = 0 ∧
          parseLineGuest written =
            .ok (some (newPfn, ⟨"22:13:000000020".toList, "OUT G NONE".toList⟩)) := by
  have hAddr : 5 < 2 ^ 64 := by decide
  have hTime : IsNumeral "123456789012345".toList := ⟨by decide, List.all_eq_true.mp (by decide)⟩
  have hBack := records_come_back .swapInWp hAddr secondInstant hTime (by decide) false
  constructor
  · rw [hBack.1.2.2.2]
    decide
  · exact hBack.2.2.2 oneSwapOut [] [] true rfl (by decide +kernel)

end Loggers
