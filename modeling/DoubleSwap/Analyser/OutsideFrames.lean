import DoubleSwap.Analyser.SlotTranslation

/-! Frames outside guest memory. The walk along the slots looks at their bases
only, and a frame below all of them keeps the address of the record before; so
a frame outside every slot is left out only where the loop has raised. -/
namespace Analyser

open Text

/-- The frame of a record. -/
def frameOf (line : Text) : Option Int := (words line).head?.bind parseInt

/-- What `process_data_file` writes for a guest log when `temp_data.txt` does
not exist yet. -/
def translatedLog (hgfile : Option TextFile) (lines : List Text) : List Text :=
  match (processDataFile ⟨hgfile, some ⟨lines, true⟩, none, none, none, none⟩).tempData with
  | some file => file.lines
  | none => []

/-- The line that is written for the `k`-th record of a log of records. -/
def translationOf (hgfile : Option TextFile) (lines : List Text) (k : Nat) : Option Text :=
  (translatedLog hgfile lines)[k]?

/-- The frame lies in the range of some slot. -/
def InGuestMemory (hgpte : List HostGuestPte) (line : Text) : Prop :=
  ∃ pfn, frameOf line = some pfn ∧ ∃ slot ∈ hgpte, slot.Contains (pfn * 4096)

/-- The frame lies below the base of every slot. -/
def BelowAllSlots (hgpte : List HostGuestPte) (line : Text) : Prop :=
  ∃ pfn, frameOf line = some pfn ∧ ∀ slot ∈ hgpte, pfn * 4096 < slot.guestPhysAddr

/-- What the translation of a log of records promises: nothing is written for
a frame outside guest memory, and what is written for a record is what would be
written for it alone. -/
def Attributed (hgfile : Option TextFile) (lines : List Text) : Prop :=
  ∀ k line, lines[k]? = some line →
    (¬ InGuestMemory (getHgpte hgfile).1 line → translationOf hgfile lines k = none) ∧
      translationOf hgfile lines k = translationOf hgfile [line] 0

theorem translateLines_no_slots (lines : List Text) :
    (translateLines [] .start lines).1.outfile = [] := by
  induction lines with
  | nil => rfl
  | cons line lines ih =>
      rw [translateLines]
      cases hWords : words line with
      | nil =>
          rw [translateLine_blank hWords]
          exact ih
      | cons t0 rest =>
          cases hStep : translateLine [] .start line with
          | error e => rfl
          | ok next =>
              obtain ⟨_, _, _, hFound, _⟩ := translateLine_eq_ok hWords hStep
              cases hFound

/-- Without slots the loop would write nothing either. -/
theorem translatedLog_eq (hgfile : Option TextFile) (lines : List Text) :
    translatedLog hgfile lines = (translateLines (getHgpte hgfile).1 .start lines).1.outfile := by
  rw [translatedLog]
  by_cases hTable : (getHgpte hgfile).1 = []
  · rw [(processDataFile_of_no_table hTable).1, hTable, translateLines_no_slots]
  · rw [tempData_of_table rfl hTable]

theorem frameOf_eq_some {line : Text} {pfn : Int} (h : frameOf line = some pfn) :
    ∃ t0 rest, words line = t0 :: rest ∧ parseInt t0 = some pfn := by
  rw [frameOf] at h
  cases hWords : words line with
  | nil =>
      rw [hWords] at h
      cases h
  | cons t0 rest =>
      rw [hWords] at h
      exact ⟨t0, rest, rfl, h⟩

theorem belowAllSlots_iff {hgpte : List HostGuestPte} {line : Text} {pfn : Int}
    (h : frameOf line = some pfn) :
    BelowAllSlots hgpte line ↔ lookupSlot hgpte (pfn * 4096) = none := by
  rw [lookupSlot_eq_none_iff]
  constructor
  · rintro ⟨other, hOther, hBelow⟩ ⟨slot, hSlot, hBase⟩
    obtain rfl := Option.some.inj (h.symm.trans hOther)
    exact absurd hBase (not_le.mpr (hBelow slot hSlot))
  · intro hNone
    refine ⟨pfn, h, ?_⟩
    intro slot hSlot
    exact not_le.mp fun hBase => hNone ⟨slot, hSlot, hBase⟩

theorem not_belowAllSlots_of_inGuestMemory {hgpte : List HostGuestPte} {line : Text}
    (h : InGuestMemory hgpte line) : ¬ BelowAllSlots hgpte line := by
  obtain ⟨pfn, hFrame, slot, hSlot, hContains⟩ := h
  rintro ⟨other, hOther, hBelow⟩
  obtain rfl := Option.some.inj (hFrame.symm.trans hOther)
  exact absurd hContains.1 (not_le.mpr (hBelow slot hSlot))

/-- A record that is not below all slots is written at once, from any state. -/
theorem translateLine_of_found {hgpte : List HostGuestPte} {line : Text}
    (hRecord : (frameOf line).isSome) (h : ¬ BelowAllSlots hgpte line) :
    ∃ newPfn rest, ∀ state : Translator, translateLine hgpte state line =
      .ok ⟨some newPfn, state.outfile ++ [translatedLine newPfn rest]⟩ := by
  obtain ⟨pfn, hFrame⟩ := Option.isSome_iff_exists.mp hRecord
  obtain ⟨t0, rest, hWords, hValue⟩ := frameOf_eq_some hFrame
  rw [belowAllSlots_iff hFrame] at h
  obtain ⟨newPfn, hLookup⟩ := Option.ne_none_iff_exists'.mp h
  exact ⟨newPfn, rest, fun state => translateLine_frame hWords hValue (by rw [hLookup]; rfl)⟩

/-- The first record raises when its frame is below all slots; nothing is
written for it or for any record after it. -/
theorem translatedLog_of_below {hgfile : Option TextFile} {first : Text}
    (h : BelowAllSlots (getHgpte hgfile).1 first) (lines : List Text) :
    translatedLog hgfile (first :: lines) = [] := by
  obtain ⟨pfn, hFrame, hBelow⟩ := h
  obtain ⟨t0, rest, hWords, hValue⟩ := frameOf_eq_some hFrame
  have hLookup := (belowAllSlots_iff hFrame).mp ⟨pfn, hFrame, hBelow⟩
  rw [translatedLog_eq, translateLines,
    translateLine_unbound hWords hValue (by rw [hLookup]; rfl)]
  rfl

/-- Once `newPfn` is bound a line is written for every record. -/
theorem length_outfile_of_bound (hgpte : List HostGuestPte) {state : Translator}
    (hBound : state.newPfn ≠ none) {lines : List Text}
    (hRecords : ∀ line ∈ lines, (frameOf line).isSome) :
    (translateLines hgpte state lines).1.outfile.length = state.outfile.length + lines.length := by
  induction lines generalizing state with
  | nil => rfl
  | cons line lines ih =>
      obtain ⟨pfn, hFrame⟩ := Option.isSome_iff_exists.mp (hRecords line List.mem_cons_self)
      obtain ⟨t0, rest, hWords, hValue⟩ := frameOf_eq_some hFrame
      obtain ⟨newPfn, hFound⟩ := Option.ne_none_iff_exists'.mp
        (show (lookupSlot hgpte (pfn * 4096)).or state.newPfn ≠ none from
          fun hNone => hBound (Option.or_eq_none_iff.mp hNone).2)
      rw [translateLines, translateLine_frame hWords hValue hFound]
      show (translateLines hgpte ⟨some newPfn, _⟩ lines).1.outfile.length = _
      rw [ih (by simp) (fun other hOther => hRecords other (List.mem_cons_of_mem line hOther)),
        List.length_append, List.length_singleton, List.length_cons]
      omega

/-- After a first record that is not below all slots, a line is written for
every record. -/
theorem length_translatedLog {hgfile : Option TextFile} {first : Text} {lines : List Text}
    (hRecords : ∀ line ∈ first :: lines, (frameOf line).isSome)
    (h : ¬ BelowAllSlots (getHgpte hgfile).1 first) :
    (translatedLog hgfile (first :: lines)).length = (first :: lines).length := by
  obtain ⟨newPfn, rest, hStep⟩ := translateLine_of_found (hRecords first List.mem_cons_self) h
  rw [translatedLog_eq, translateLines, hStep]
  show (translateLines _ ⟨some newPfn, _⟩ lines).1.outfile.length = _
  rw [length_outfile_of_bound _ (by simp)
    (fun other hOther => hRecords other (List.mem_cons_of_mem first hOther))]
  show 1 + lines.length = lines.length + 1
  omega

theorem translateLines_of_found {hgpte : List HostGuestPte} {lines : List Text}
    (hRecords : ∀ line ∈ lines, (frameOf line).isSome)
    (h : ∀ line ∈ lines, ¬ BelowAllSlots hgpte line) (state : Translator) :
    (translateLines hgpte state lines).1.outfile.map some = state.outfile.map some ++
      lines.map fun line => (translateLines hgpte .start [line]).1.outfile[0]? := by
  induction lines generalizing state with
  | nil => exact (List.append_nil _).symm
  | cons line lines ih =>
      rw [List.forall_mem_cons] at hRecords h
      obtain ⟨newPfn, rest, hStep⟩ := translateLine_of_found hRecords.1 h.1
      have hAlone : (translateLines hgpte .start [line]).1.outfile[0]? =
          some (translatedLine newPfn rest) := by
        rw [translateLines, hStep]
        rfl
      rw [translateLines, hStep, List.map_cons, hAlone]
      show (translateLines hgpte ⟨some newPfn, _⟩ lines).1.outfile.map some = _
      rw [ih hRecords.2 h.2, List.map_append, List.append_assoc]
      rfl

/-- Where every lookup succeeds, a record is translated by itself. -/
theorem translationOf_of_found {hgfile : Option TextFile} {lines : List Text}
    (hRecords : ∀ line ∈ lines, (frameOf line).isSome)
    (h : ∀ line ∈ lines, ¬ BelowAllSlots (getHgpte hgfile).1 line) {k : Nat} {line : Text}
    (hLine : lines[k]? = some line) :
    translationOf hgfile lines k = translationOf hgfile [line] 0 := by
  have hMap := congrArg (fun l : List (Option Text) => l[k]?)
    (translateLines_of_found hRecords h .start)
  simp only [translationOf, translatedLog_eq, Translator.start, List.map_nil, List.nil_append,
    List.getElem?_map, hLine, Option.map_some] at hMap ⊢
  obtain ⟨written, hWritten, hAlone⟩ := Option.map_eq_some_iff.mp hMap
  rw [hWritten]
  exact hAlone

/-- A record that is not below all slots is written when it stands alone. -/
theorem translationOf_singleton_ne_none {hgfile : Option TextFile} {line : Text}
    (hRecord : (frameOf line).isSome) (h : ¬ BelowAllSlots (getHgpte hgfile).1 line) :
    translationOf hgfile [line] 0 ≠ none := by
  intro hNone
  have hLength : (translatedLog hgfile [line]).length = 1 :=
    length_translatedLog (by simpa using hRecord) h
  rw [translationOf, List.getElem?_eq_none_iff, hLength] at hNone
  exact Nat.not_succ_le_zero 0 hNone

theorem attributed_of_inGuestMemory {hgfile : Option TextFile} {lines : List Text}
    (hRecords : ∀ line ∈ lines, (frameOf line).isSome)
    (h : ∀ line ∈ lines, InGuestMemory (getHgpte hgfile).1 line) : Attributed hgfile lines := by
  intro k line hLine
  have hMem := List.mem_of_getElem? hLine
  refine ⟨fun hOutside => absurd (h line hMem) hOutside, ?_⟩
  exact translationOf_of_found hRecords
    (fun other hOther => not_belowAllSlots_of_inGuestMemory (h other hOther)) hLine

theorem attributed_of_belowAllSlots {hgfile : Option TextFile} {lines : List Text}
    (h : ∀ line ∈ lines, BelowAllSlots (getHgpte hgfile).1 line) : Attributed hgfile lines := by
  have hEmpty (log : List Text) (hLog : ∀ other ∈ log, other ∈ lines) :
      translatedLog hgfile log = [] := by
    cases log with
    | nil => exact translatedLog_eq hgfile []
    | cons first rest => exact translatedLog_of_below (h first (hLog _ (by simp))) rest
  intro k line hLine
  have hMem := List.mem_of_getElem? hLine
  have hAll := hEmpty lines (fun _ hOther => hOther)
  have hAlone := hEmpty [line] (by simpa using hMem)
  simp only [translationOf, hAll, hAlone]
  exact ⟨fun _ => rfl, rfl⟩

/-- The translation keeps its promise exactly for the logs whose frames all lie
in guest memory, and for those whose frames all lie below every slot. -/
theorem attributed_iff (hgfile : Option TextFile) {lines : List Text}
    (hRecords : ∀ line ∈ lines, (frameOf line).isSome) :
    Attributed hgfile lines ↔
      (∀ line ∈ lines, InGuestMemory (getHgpte hgfile).1 line) ∨
        ∀ line ∈ lines, BelowAllSlots (getHgpte hgfile).1 line := by
  constructor
  · intro hAttributed
    cases lines with
    | nil => exact Or.inl fun line hLine => absurd hLine List.not_mem_nil
    | cons first rest =>
        by_cases hFirst : BelowAllSlots (getHgpte hgfile).1 first
        · -- The first record raises, so nothing is written for the others either.
          refine Or.inr ?_
          intro line hLine
          by_contra hFound
          obtain ⟨k, hk⟩ := List.mem_iff_getElem?.mp hLine
          have hAlone := (hAttributed k line hk).2
          rw [translationOf, translatedLog_of_below hFirst rest] at hAlone
          exact translationOf_singleton_ne_none (hRecords line hLine) hFound (by rw [← hAlone]; rfl)
        · -- Every record is written, so none may lie outside.
          refine Or.inl ?_
          intro line hLine
          by_contra hOutside
          obtain ⟨k, hk⟩ := List.mem_iff_getElem?.mp hLine
          have hNone := (hAttributed k line hk).1 hOutside
          rw [translationOf, List.getElem?_eq_none_iff,
            length_translatedLog hRecords hFirst] at hNone
          exact absurd (List.getElem?_eq_some_iff.mp hk).1 (not_lt.mpr hNone)
  · rintro (hInside | hBelow)
    · exact attributed_of_inGuestMemory hRecords hInside
    · exact attributed_of_belowAllSlots hBelow

/-- Two slots with a hole between them. -/
def twoSlots : Option TextFile :=
  some ⟨["140000000000000 0 655360 0\n".toList, "150000000000000 1048576 4096 0\n".toList], true⟩

/-- The last frame of the first slot, the only frame of the second, and the
first frame of the first one, which comes back. -/
def framesInside : List Text :=
  ["159 OUT G* NONE 00:00:000000001\n".toList, "256 OUT G* NONE 00:00:000000002\n".toList,
    "0 OUT G* NONE 00:00:000000003\n".toList, "159 IN G* NONE 00:00:000000004\n".toList]

theorem framesInside_attributed : Attributed twoSlots framesInside := by
  have hTable : (getHgpte twoSlots).1 =
      [⟨150000000000000, 1048576, 4096, 0⟩, ⟨140000000000000, 0, 655360, 0⟩] := by decide +kernel
  refine (attributed_iff twoSlots ?_).mpr (Or.inl ?_)
  · decide +kernel
  · rw [hTable]
    intro line hLine
    simp only [framesInside, List.mem_cons, List.not_mem_nil, or_false] at hLine
    rcases hLine with rfl | rfl | rfl | rfl
    · exact ⟨159, by decide +kernel, ⟨140000000000000, 0, 655360, 0⟩, by decide, by decide,
        by decide⟩
    · exact ⟨256, by decide +kernel, ⟨150000000000000, 1048576, 4096, 0⟩, by decide, by decide,
        by decide⟩
    · exact ⟨0, by decide +kernel, ⟨140000000000000, 0, 655360, 0⟩, by decide, by decide,
        by decide⟩
    · exact ⟨159, by decide +kernel, ⟨140000000000000, 0, 655360, 0⟩, by decide, by decide,
        by decide⟩

/-- One slot of a page at address 4096. -/
def onePage : Option TextFile := some ⟨["140000000000000 4096 4096 0\n".toList], true⟩

/-- A frame in the slot, one past its end and one below it. -/
def strayFrames : List Text :=
  ["1 OUT G* NONE 00:00:000000001\n".toList, "9 OUT G* NONE 00:00:000000002\n".toList,
    "0 OUT G* NONE 00:00:000000003\n".toList]

/-- The frame past the end gets an address past the slot, and the frame below
the slot gets the same address again. -/
theorem strayFrames_not_attributed :
    (translatedLog onePage strayFrames =
      ["140000000000000 OUT G* NONE 00:00:000000001\n".toList,
        "140000000032768 OUT G* NONE 00:00:000000002\n".toList,
        "140000000032768 OUT G* NONE 00:00:000000003\n".toList]) ∧
      ¬ Attributed onePage strayFrames := by
  refine ⟨by decide +kernel, ?_⟩
  intro hAttributed
  have hNone := (hAttributed 1 "9 OUT G* NONE 00:00:000000002\n".toList rfl).1
  have hOutside :
      ¬ InGuestMemory (getHgpte onePage).1 "9 OUT G* NONE 00:00:000000002\n".toList := by
    rintro ⟨pfn, hFrame, slot, hSlot, hContains⟩
    have hNine : frameOf "9 OUT G* NONE 00:00:000000002\n".toList = some 9 := by decide +kernel
    have hTable : (getHgpte onePage).1 = [⟨140000000000000, 4096, 4096, 0⟩] := by decide +kernel
    obtain rfl := Option.some.inj (hNine.symm.trans hFrame)
    rw [hTable] at hSlot
    rw [List.mem_singleton.mp hSlot] at hContains
    exact absurd hContains.2 (by decide)
  exact absurd (hNone hOutside) (by decide +kernel)

end Analyser
