import DoubleSwap.Analyser.StaleReport

/-! Translation of frames inside guest memory. The lookup compares with the
bases of the slots only; that it finds the slot around a frame rests on the
slots being disjoint and on the order in which `get_hgpte` links them. -/
namespace Analyser

open Text

/-- The slots of the lines that `get_hgpte` can use. -/
def usableSlots (lines : List Text) : Except PyError (List HostGuestPte) :=
  (lines.mapM parseSlot).map List.reduceOption

/-- The guest-physical address lies in the slot. -/
def HostGuestPte.Contains (slot : HostGuestPte) (pfnValue : Int) : Prop :=
  (slot.guestPhysAddr : Int) ≤ pfnValue ∧ pfnValue < slot.guestPhysAddr + slot.size

/-- The host-virtual address of a guest-physical one. -/
def HostGuestPte.translate (slot : HostGuestPte) (pfnValue : Int) : Int :=
  slot.userspaceAddr + (pfnValue - slot.guestPhysAddr)

def GuestDisjoint (first second : HostGuestPte) : Prop :=
  first.guestPhysAddr + first.size ≤ second.guestPhysAddr ∨
    second.guestPhysAddr + second.size ≤ first.guestPhysAddr

def HostDisjoint (first second : HostGuestPte) : Prop :=
  first.userspaceAddr + first.size ≤ second.userspaceAddr ∨
    second.userspaceAddr + second.size ≤ first.userspaceAddr

instance : Std.Symm GuestDisjoint := ⟨fun _ _ h => h.symm⟩

instance : Std.Symm HostDisjoint := ⟨fun _ _ h => h.symm⟩

/-- A slot file with at most three usable lines, for disjoint slots. -/
structure SlotFile (file : TextFile) (slots : List HostGuestPte) : Prop where
  decodes : file.decodes = true
  usable : usableSlots file.lines = .ok slots
  three : slots.length ≤ 3
  size : ∀ slot ∈ slots, 0 < slot.size
  disjoint : slots.Pairwise GuestDisjoint

/-- With no more usable lines than it takes, the loop takes all of them. -/
theorem readSlots_eq {lines : List Text} {entries slots : List HostGuestPte}
    (hUsable : usableSlots lines = .ok slots) (hThree : entries.length + slots.length ≤ 3) :
    readSlots true entries lines = .ok (entries ++ slots) := by
  induction lines generalizing entries slots with
  | nil =>
      cases hUsable
      exact congrArg Except.ok (List.append_nil entries).symm
  | cons line lines ih =>
      obtain ⟨parsed, hParsed, rfl⟩ := Fallible.map_eq_ok.mp hUsable
      obtain ⟨value, others, hLine, hOthers, rfl⟩ := Fallible.mapM_cons_ok.mp hParsed
      have hRest : usableSlots lines = .ok others.reduceOption :=
        Fallible.map_eq_ok.mpr ⟨others, hOthers, rfl⟩
      rw [readSlots]
      split_ifs with hFull
      · have hNone : (value :: others).reduceOption = [] := by
          apply List.eq_nil_of_length_eq_zero
          omega
        rw [hNone, List.append_nil]
      · rw [hLine]
        cases value with
        | none => exact ih hRest hThree
        | some slot =>
            rw [List.reduceOption_cons_of_some, List.length_cons] at hThree
            show readSlots true (entries ++ [slot]) lines = _
            rw [ih hRest (by rw [List.length_append, List.length_singleton]; omega),
              List.reduceOption_cons_of_some, List.append_assoc, List.singleton_append]

theorem SlotFile.getHgpte_eq {file : TextFile} {slots : List HostGuestPte}
    (h : SlotFile file slots) : getHgpte (some file) = (sortSlots slots, []) := by
  have hRead : readSlots file.decodes [] file.lines = .ok slots := by
    rw [h.decodes]
    exact readSlots_eq h.usable (by simpa using h.three)
  rw [getHgpte]
  simp only [hRead]

/-- The lookup finds the slot around the address: every other slot that starts
at or below it ends before that slot. -/
theorem lookupSlot_of_contains {slots : List HostGuestPte} (hSize : ∀ slot ∈ slots, 0 < slot.size)
    (hDisjoint : slots.Pairwise GuestDisjoint) {slot : HostGuestPte} (hSlot : slot ∈ slots)
    {pfnValue : Int} (hContains : slot.Contains pfnValue) :
    lookupSlot (sortSlots slots) pfnValue = some (slot.translate pfnValue) := by
  have hSome : ((sortSlots slots).find?
      fun slot => (slot.guestPhysAddr : Int) ≤ pfnValue).isSome = true := by
    rw [List.find?_isSome]
    exact ⟨slot, StableSort.mem_sortBy.mpr hSlot, decide_eq_true hContains.1⟩
  obtain ⟨found, hFound⟩ := Option.isSome_iff_exists.mp hSome
  have hMem : found ∈ slots := StableSort.mem_sortBy.mp (List.mem_of_find?_eq_some hFound)
  have hBase : (found.guestPhysAddr : Int) ≤ pfnValue := by simpa using List.find?_some hFound
  have hHighest : slot.guestPhysAddr ≤ found.guestPhysAddr :=
    StableSort.find?_sortBy hFound slot hSlot (decide_eq_true hContains.1)
  have hEq : found = slot := by
    by_contra hne
    have hFoundSize := hSize found hMem
    rcases hDisjoint.forall hMem hSlot hne with hBelow | hAbove
    · omega
    · have hEnd := hContains.2
      omega
  rw [lookupSlot, hFound, hEq]
  rfl

/-- Slots that are disjoint on the host send different addresses apart. -/
theorem translate_ne {slots : List HostGuestPte} (hHost : slots.Pairwise HostDisjoint)
    {first second : HostGuestPte} (hFirst : first ∈ slots) (hSecond : second ∈ slots) {p q : Int}
    (hp : first.Contains p) (hq : second.Contains q) (hne : p ≠ q) :
    first.translate p ≠ second.translate q := by
  obtain ⟨hpLow, hpHigh⟩ := hp
  obtain ⟨hqLow, hqHigh⟩ := hq
  simp only [HostGuestPte.translate]
  by_cases hSame : first = second
  · subst hSame
    omega
  · rcases hHost.forall hFirst hSecond hSame with hBelow | hAbove
    · omega
    · omega

theorem translateLines_append (hgpte : List HostGuestPte) (state : Translator)
    {before : List Text} (hReached : (translateLines hgpte state before).2 = none)
    (after : List Text) :
    translateLines hgpte state (before ++ after) =
      translateLines hgpte (translateLines hgpte state before).1 after := by
  induction before generalizing state with
  | nil => rfl
  | cons line before ih =>
      rw [translateLines] at hReached
      rw [List.cons_append, translateLines, translateLines]
      cases hStep : translateLine hgpte state line with
      | error e =>
          rw [hStep] at hReached
          cases hReached
      | ok next =>
          rw [hStep] at hReached
          exact ih next hReached

theorem translateLines_of_append (hgpte : List HostGuestPte) (state : Translator)
    {before after : List Text} (h : (translateLines hgpte state (before ++ after)).2 = none) :
    (translateLines hgpte state before).2 = none := by
  induction before generalizing state with
  | nil => rfl
  | cons line before ih =>
      rw [List.cons_append, translateLines] at h
      rw [translateLines]
      cases hStep : translateLine hgpte state line with
      | error e =>
          rw [hStep] at h
          cases h
      | ok next =>
          rw [hStep] at h
          exact ih next h

/-- The number of records of a log: blank lines are passed over. -/
def recordCount (lines : List Text) : Nat := (firstFields lines).length

/-- What is written stays, and every record that does not raise adds a line. -/
theorem translateLines_extends (hgpte : List HostGuestPte) (state : Translator)
    (lines : List Text) :
    ∃ more, (translateLines hgpte state lines).1.outfile = state.outfile ++ more ∧
      ((translateLines hgpte state lines).2 = none → more.length = recordCount lines) := by
  induction lines generalizing state with
  | nil => exact ⟨[], (List.append_nil _).symm, fun _ => rfl⟩
  | cons line lines ih =>
      rw [translateLines]
      cases hWords : words line with
      | nil =>
          rw [translateLine_blank hWords, recordCount, firstFields_cons_blank hWords]
          exact ih state
      | cons t0 rest =>
          rw [recordCount, firstFields_cons hWords, List.length_cons]
          cases hStep : translateLine hgpte state line with
          | error e => exact ⟨[], (List.append_nil _).symm, fun h => by cases h⟩
          | ok next =>
              obtain ⟨_, newPfn, _, _, rfl⟩ := translateLine_eq_ok hWords hStep
              obtain ⟨more, hMore, hCount⟩ := ih ⟨some newPfn, _⟩
              refine ⟨translatedLine newPfn rest :: more, ?_, ?_⟩
              · rw [hMore, List.append_assoc]
                rfl
              · intro hEnd
                rw [List.length_cons, hCount hEnd]
                rfl

/-- A record that is reached and does not raise leaves its line in its place,
whatever surrounds it. -/
theorem translateLines_split {hgpte : List HostGuestPte} {before : List Text} {line written : Text}
    {newPfn : Int} (hReached : (translateLines hgpte .start before).2 = none)
    (hStep : ∀ state : Translator,
      translateLine hgpte state line = .ok ⟨some newPfn, state.outfile ++ [written]⟩)
    (after : List Text) :
    ∃ earlier later, (translateLines hgpte .start (before ++ line :: after)).1.outfile =
      earlier ++ written :: later ∧ earlier.length = recordCount before := by
  obtain ⟨earlier, hEarlier, hCount⟩ := translateLines_extends hgpte .start before
  obtain ⟨later, hLater, _⟩ := translateLines_extends hgpte
    ⟨some newPfn, earlier ++ [written]⟩ after
  refine ⟨earlier, later, ?_, hCount hReached⟩
  rw [translateLines_append hgpte _ hReached, translateLines, hStep, hEarlier]
  show (translateLines hgpte ⟨some newPfn, earlier ++ [written]⟩ after).1.outfile = _
  rw [hLater, List.append_assoc, List.singleton_append]

/-- A record of a frame inside one of the slots. -/
def InSlotRecord (slots : List HostGuestPte) (line : Text) : Prop :=
  ∃ token rest pfn, words line = token :: rest ∧ int token = .ok pfn ∧
    ∃ slot ∈ slots, slot.Contains (pfn * 4096)

theorem int_eq_ok {s : Text} {z : Int} : int s = .ok z ↔ parseInt s = some z := by
  rw [int]
  cases parseInt s with
  | none => simp
  | some value => simp

theorem translateLine_inSlot {slots : List HostGuestPte} (hSize : ∀ slot ∈ slots, 0 < slot.size)
    (hDisjoint : slots.Pairwise GuestDisjoint) {line token : Text} {rest : List Text} {pfn : Int}
    (hWords : words line = token :: rest) (hFrame : int token = .ok pfn) {slot : HostGuestPte}
    (hSlot : slot ∈ slots) (hContains : slot.Contains (pfn * 4096)) (state : Translator) :
    translateLine (sortSlots slots) state line =
      .ok ⟨some (slot.translate (pfn * 4096)),
        state.outfile ++ [translatedLine (slot.translate (pfn * 4096)) rest]⟩ := by
  apply translateLine_frame hWords (int_eq_ok.mp hFrame)
  rw [lookupSlot_of_contains hSize hDisjoint hSlot hContains]
  rfl

/-- In a log of such records none raises. -/
theorem translateLines_inSlot {slots : List HostGuestPte} (hSize : ∀ slot ∈ slots, 0 < slot.size)
    (hDisjoint : slots.Pairwise GuestDisjoint) {lines : List Text}
    (hLines : ∀ line ∈ lines, words line = [] ∨ InSlotRecord slots line) (state : Translator) :
    (translateLines (sortSlots slots) state lines).2 = none := by
  induction lines generalizing state with
  | nil => rfl
  | cons line lines ih =>
      have hRest := fun other hOther => hLines other (List.mem_cons_of_mem line hOther)
      rw [translateLines]
      rcases hLines line List.mem_cons_self with hBlank | hRecord
      · rw [translateLine_blank hBlank]
        exact ih hRest state
      · obtain ⟨token, rest, pfn, hWords, hFrame, slot, hSlot, hContains⟩ := hRecord
        rw [translateLine_inSlot hSize hDisjoint hWords hFrame hSlot hContains]
        exact ih hRest _

theorem tempData_of_table {dir : DataDir} {guest : TextFile} (hGuest : dir.guestData = some guest)
    (hTable : (getHgpte dir.hgfile).1 ≠ []) :
    (processDataFile dir).tempData =
      some ⟨(translateLines (getHgpte dir.hgfile).1 .start guest.lines).1.outfile, true⟩ := by
  rw [processDataFile_of_table hTable, hGuest]
  rcases hRun : translateLines (getHgpte dir.hgfile).1 .start guest.lines with ⟨state, error⟩
  cases error with
  | some e => simp only [hRun]
  | none => simp only [hRun]

/-- The line of `temp_data.txt` for the record that follows `before`. -/
def writtenAfter (dir : DataDir) (before : List Text) : Option Text :=
  (processDataFile dir).tempData.bind fun file => file.lines[recordCount before]?

/-- The record of the log after `before` has the frame `pfn`, inside `slot`, and
the further tokens `rest`. -/
def InSlotAt (slots : List HostGuestPte) (lines before : List Text) (pfn : Int)
    (slot : HostGuestPte) (rest : List Text) : Prop :=
  ∃ line after token, lines = before ++ line :: after ∧ words line = token :: rest ∧
    int token = .ok pfn ∧ slot ∈ slots ∧ slot.Contains (pfn * 4096)

/-- What the translation promises for frames inside guest memory: a record is
rewritten to the address in its slot, with its other tokens kept, and with slots
that are disjoint on the host two frames never receive one address. -/
structure TranslatesInSlot (dir : DataDir) (slots : List HostGuestPte) (lines : List Text) :
    Prop where
  rewritten : ∀ before pfn slot rest, InSlotAt slots lines before pfn slot rest →
    ∃ written, writtenAfter dir before = some written ∧
      written = translatedLine (slot.translate (pfn * 4096)) rest ∧
      words written = intText (slot.translate (pfn * 4096)) :: rest
  apart : slots.Pairwise HostDisjoint →
    ∀ before pfn slot rest before' pfn' slot' rest', InSlotAt slots lines before pfn slot rest →
      InSlotAt slots lines before' pfn' slot' rest' → pfn ≠ pfn' →
      ∀ written written', writtenAfter dir before = some written →
        writtenAfter dir before' = some written' → (words written).head? ≠ (words written').head?

/-- The loop gets past everything before a record inside a slot: the first
fields are numerals, and the first of them is not below all slots. -/
def InSlotReached (slots : List HostGuestPte) (lines : List Text) : Prop :=
  ∀ before pfn slot rest, InSlotAt slots lines before pfn slot rest →
    NumeralFrames before ∧ FirstFrameInSlot slots before

theorem firstFrameInSlot_sortSlots (slots : List HostGuestPte) (lines : List Text) :
    FirstFrameInSlot (sortSlots slots) lines ↔ FirstFrameInSlot slots lines := by
  simp only [FirstFrameInSlot, sortSlots, StableSort.mem_sortBy]

/-- A loop that has raised before a record leaves no line in its place. -/
theorem translateLines_of_raised {hgpte : List HostGuestPte} {state : Translator}
    {before : List Text} (hRaised : (translateLines hgpte state before).2 ≠ none)
    (after : List Text) :
    (translateLines hgpte state (before ++ after)).1 = (translateLines hgpte state before).1 ∧
      (translateLines hgpte state before).1.outfile.length <
        state.outfile.length + recordCount before := by
  induction before generalizing state with
  | nil => exact absurd rfl hRaised
  | cons line before ih =>
      rw [translateLines] at hRaised
      rw [List.cons_append, translateLines, translateLines]
      cases hWords : words line with
      | nil =>
          rw [translateLine_blank hWords] at hRaised ⊢
          rw [recordCount, firstFields_cons_blank hWords]
          exact ih hRaised
      | cons t0 rest =>
          rw [recordCount, firstFields_cons hWords, List.length_cons]
          cases hStep : translateLine hgpte state line with
          | error e => exact ⟨rfl, Nat.lt_add_of_pos_right (Nat.succ_pos _)⟩
          | ok next =>
              rw [hStep] at hRaised
              obtain ⟨hSame, hCount⟩ := ih hRaised
              obtain ⟨_, newPfn, _, _, rfl⟩ := translateLine_eq_ok hWords hStep
              rw [List.length_append, List.length_singleton, recordCount] at hCount
              refine ⟨hSame, ?_⟩
              show (translateLines hgpte ⟨some newPfn, _⟩ before).1.outfile.length < _
              omega

section InSlot

variable {dir : DataDir} {file guest : TextFile} {slots : List HostGuestPte}

/-- The line after a list of records is what the loop left at that place. -/
theorem writtenAfter_eq (hFile : dir.hgfile = some file) (hGuest : dir.guestData = some guest)
    (hSlots : SlotFile file slots) (hSome : slots ≠ []) (before : List Text) :
    writtenAfter dir before =
      (translateLines (sortSlots slots) .start guest.lines).1.outfile[recordCount before]? := by
  have hTable : (getHgpte dir.hgfile).1 = sortSlots slots := by rw [hFile, hSlots.getHgpte_eq]
  have hSorted : (getHgpte dir.hgfile).1 ≠ [] := by
    rw [hTable]
    obtain ⟨slot, hSlot⟩ := List.exists_mem_of_ne_nil slots hSome
    exact List.ne_nil_of_mem (StableSort.mem_sortBy.mpr hSlot)
  rw [writtenAfter, tempData_of_table hGuest hSorted, hTable]
  rfl

/-- A line is written for a record inside a slot exactly when the loop reaches
it, and then it is the translated one. -/
theorem writtenAfter_inSlot (hFile : dir.hgfile = some file)
    (hGuest : dir.guestData = some guest) (hSlots : SlotFile file slots)
    {before rest : List Text} {pfn : Int} {slot : HostGuestPte}
    (hRecord : InSlotAt slots guest.lines before pfn slot rest) {written : Text} :
    writtenAfter dir before = some written ↔
      (NumeralFrames before ∧ FirstFrameInSlot slots before) ∧
        written = translatedLine (slot.translate (pfn * 4096)) rest := by
  obtain ⟨line, after, token, hLines, hWords, hFrame, hSlot, hContains⟩ := hRecord
  have hReached : (translateLines (sortSlots slots) .start before).2 = none ↔
      NumeralFrames before ∧ FirstFrameInSlot slots before := by
    rw [translateLines_eq_none_iff, firstFrameInSlot_sortSlots]
    exact and_congr_right' ⟨fun h => h rfl, fun h _ => h⟩
  rw [writtenAfter_eq hFile hGuest hSlots (List.ne_nil_of_mem hSlot), hLines, ← hReached]
  by_cases hEnd : (translateLines (sortSlots slots) .start before).2 = none
  · obtain ⟨earlier, later, hWritten, hCount⟩ := translateLines_split hEnd
      (translateLine_inSlot hSlots.size hSlots.disjoint hWords hFrame hSlot hContains) after
    rw [hWritten, ← hCount, List.getElem?_append_right (le_refl _), Nat.sub_self,
      List.getElem?_cons_zero, Option.some.injEq]
    exact ⟨fun h => ⟨hEnd, h.symm⟩, fun h => h.2.symm⟩
  · obtain ⟨hSame, hShort⟩ := translateLines_of_raised hEnd (line :: after)
    have hNothing : (translateLines (sortSlots slots) .start
        (before ++ line :: after)).1.outfile[recordCount before]? = none := by
      rw [hSame, List.getElem?_eq_none_iff]
      exact Nat.le_of_lt (by simpa [Translator.start] using hShort)
    rw [hNothing]
    exact ⟨fun h => (Option.some_ne_none _ h.symm).elim, fun h => absurd h.1 hEnd⟩

/-- The tokens of the line that is written for the record. -/
theorem InSlotAt.words_translatedLine {lines before rest : List Text} {pfn : Int}
    {slot : HostGuestPte} (h : InSlotAt slots lines before pfn slot rest) (newPfn : Int) :
    words (translatedLine newPfn rest) = intText newPfn :: rest := by
  obtain ⟨line, _, token, _, hWords, _⟩ := h
  apply Analyser.words_translatedLine
  intro w hw
  apply isWord_of_mem_words (s := line)
  rw [hWords]
  exact List.mem_cons_of_mem _ hw

theorem intText_injective : Function.Injective intText := by
  intro first second h
  have hParsed := congrArg parseInt h
  rw [parseInt_intText, parseInt_intText] at hParsed
  exact Option.some.inj hParsed

/-- With at most three disjoint slots, the frames inside them are translated to
the addresses in their slots, and kept apart, exactly when no record that ends
the loop comes before one of them. -/
theorem translatesInSlot_iff (hFile : dir.hgfile = some file)
    (hGuest : dir.guestData = some guest) (hSlots : SlotFile file slots) :
    TranslatesInSlot dir slots guest.lines ↔ InSlotReached slots guest.lines := by
  constructor
  · intro hTranslates before pfn slot rest hRecord
    obtain ⟨written, hWritten, _⟩ := hTranslates.rewritten before pfn slot rest hRecord
    exact ((writtenAfter_inSlot hFile hGuest hSlots hRecord).mp hWritten).1
  · intro hReached
    constructor
    · intro before pfn slot rest hRecord
      have hBefore := hReached before pfn slot rest hRecord
      exact ⟨_, (writtenAfter_inSlot hFile hGuest hSlots hRecord).mpr ⟨hBefore, rfl⟩, rfl,
        hRecord.words_translatedLine _⟩
    · -- Whatever was reached, its address is the one in its slot.
      intro hHost before pfn slot rest before' pfn' slot' rest' hFirst hSecond hne written
        written' hWritten hWritten'
      obtain ⟨_, rfl⟩ := (writtenAfter_inSlot hFile hGuest hSlots hFirst).mp hWritten
      obtain ⟨_, rfl⟩ := (writtenAfter_inSlot hFile hGuest hSlots hSecond).mp hWritten'
      rw [hFirst.words_translatedLine, hSecond.words_translatedLine]
      intro hSame
      obtain ⟨_, _, _, _, _, _, hSlot, hContains⟩ := hFirst
      obtain ⟨_, _, _, _, _, _, hSlot', hContains'⟩ := hSecond
      have hAddresses : pfn * 4096 ≠ pfn' * 4096 := by omega
      exact translate_ne hHost hSlot hSlot' hContains hContains' hAddresses
        (intText_injective (Option.some.inj hSame))

/-- In a log of such records, with or without blank lines, each is reached. -/
theorem inSlotReached_of_forall (hSlots : SlotFile file slots) {lines : List Text}
    (hLines : ∀ line ∈ lines, words line = [] ∨ InSlotRecord slots line) :
    InSlotReached slots lines := by
  rintro before _ _ _ ⟨line, after, _, hSplit, _⟩
  have hBefore : ∀ other ∈ before, words other = [] ∨ InSlotRecord slots other := by
    intro other hOther
    exact hLines other (by rw [hSplit]; exact List.mem_append_left _ hOther)
  obtain ⟨hNumerals, hFirst⟩ := (translateLines_eq_none_iff _ .start before).mp
    (translateLines_inSlot hSlots.size hSlots.disjoint hBefore .start)
  exact ⟨hNumerals, (firstFrameInSlot_sortSlots slots before).mp (hFirst rfl)⟩

end InSlot

/-- Two adjacent slots, the lower one listed first, and the frames on either
side of their boundary. -/
def adjacentSlots : DataDir where
  hgfile := some ⟨["140000000000000 0 655360 0\n".toList, "two slots\n".toList,
    "150000000000000 655360 1048576 0\n".toList], true⟩
  guestData := some ⟨["159 OUT G* NONE 00:00:000000001\n".toList, "\n".toList,
    "160 OUT G* NONE 00:00:000000002\n".toList], true⟩
  tempData := none
  data := none
  hostData := none
  dataIn := none

theorem adjacentSlots_inSlot :
    TranslatesInSlot adjacentSlots
      [⟨140000000000000, 0, 655360, 0⟩, ⟨150000000000000, 655360, 1048576, 0⟩]
      ["159 OUT G* NONE 00:00:000000001\n".toList, "\n".toList,
        "160 OUT G* NONE 00:00:000000002\n".toList] := by
  have hSlots : SlotFile ⟨["140000000000000 0 655360 0\n".toList, "two slots\n".toList,
      "150000000000000 655360 1048576 0\n".toList], true⟩
      [⟨140000000000000, 0, 655360, 0⟩, ⟨150000000000000, 655360, 1048576, 0⟩] := by
    refine ⟨rfl, by decide +kernel, by decide, ?_, ?_⟩
    · intro slot hSlot
      simp only [List.mem_cons, List.not_mem_nil, or_false] at hSlot
      rcases hSlot with rfl | rfl
      · decide
      · decide
    · unfold GuestDisjoint
      decide
  refine (translatesInSlot_iff (show adjacentSlots.hgfile = some _ from rfl)
    (show adjacentSlots.guestData = some _ from rfl) hSlots).mpr
    (inSlotReached_of_forall hSlots ?_)
  intro line hLine
  simp only [List.mem_cons, List.not_mem_nil, or_false] at hLine
  rcases hLine with rfl | rfl | rfl
  · exact Or.inr ⟨"159".toList, _, 159, rfl, by decide +kernel,
      ⟨140000000000000, 0, 655360, 0⟩, by decide, by decide, by decide⟩
  · exact Or.inl (by decide +kernel)
  · exact Or.inr ⟨"160".toList, _, 160, rfl, by decide +kernel,
      ⟨150000000000000, 655360, 1048576, 0⟩, by decide, by decide, by decide⟩

/-- One slot of a page at address 4096, and a frame below it before the frame
inside it. -/
def frameBelowFirst : DataDir where
  hgfile := some ⟨["140000000000000 4096 4096 0\n".toList], true⟩
  guestData := some ⟨["0 OUT G* NONE 00:00:000000001\n".toList,
    "1 OUT G* NONE 00:00:000000002\n".toList], true⟩
  tempData := none
  data := none
  hostData := none
  dataIn := none

/-- The frame below the slot finds `new_pfn` unbound and ends the loop, so
nothing is written for the frame inside the slot. -/
theorem frameBelowFirst_not_translated :
    SlotFile ⟨["140000000000000 4096 4096 0\n".toList], true⟩
        [⟨140000000000000, 4096, 4096, 0⟩] ∧
      (processDataFile frameBelowFirst).tempData = some ⟨[], true⟩ ∧
      ¬ TranslatesInSlot frameBelowFirst [⟨140000000000000, 4096, 4096, 0⟩]
        ["0 OUT G* NONE 00:00:000000001\n".toList,
          "1 OUT G* NONE 00:00:000000002\n".toList] := by
  refine ⟨⟨rfl, by decide +kernel, by decide, by simp, List.pairwise_singleton _ _⟩,
    by decide +kernel, ?_⟩
  intro hTranslates
  obtain ⟨written, hWritten, _⟩ := hTranslates.rewritten
    ["0 OUT G* NONE 00:00:000000001\n".toList] 1 ⟨140000000000000, 4096, 4096, 0⟩
    ["OUT".toList, "G*".toList, "NONE".toList, "00:00:000000002".toList]
    ⟨"1 OUT G* NONE 00:00:000000002\n".toList, [], "1".toList, rfl, by decide +kernel,
      by decide +kernel, by decide, by decide, by decide⟩
  have hNothing : writtenAfter frameBelowFirst ["0 OUT G* NONE 00:00:000000001\n".toList] =
      none := by decide +kernel
  rw [hNothing] at hWritten
  cases hWritten

end Analyser
