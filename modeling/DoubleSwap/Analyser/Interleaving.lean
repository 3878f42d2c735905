import DoubleSwap.Data.Occurrence
import DoubleSwap.Analyser.Merge

/-! What `contains_sequence` recognises. The matcher is first compared with a
reading of patterns as sets of texts; then the three alternatives of a group
are shown to cover every order of the host swap-in and the guest events. -/
namespace Analyser

open Text Occurrence

/-- The texts that a pattern describes. -/
inductive Matches : List Atom → Text → Prop where
  | nil : Matches [] []
  | char (c : Char) {pattern : List Atom} {s : Text} (rest : Matches pattern s) :
      Matches (.char c :: pattern) (c :: s)
  | anyRun {run : Text} {pattern : List Atom} {s : Text} (hRun : '\n' ∉ run)
      (rest : Matches pattern s) : Matches (.anyRun :: pattern) (run ++ s)

theorem matchRun_iff (rest : Text → Bool) (s : Text) :
    matchRun rest s = true ↔ ∃ run tail, s = run ++ tail ∧ '\n' ∉ run ∧ rest tail = true := by
  induction s with
  | nil =>
      rw [matchRun]
      constructor
      · intro hRest
        exact ⟨[], [], rfl, by simp, hRest⟩
      · rintro ⟨run, tail, hSplit, _, hRest⟩
        obtain ⟨_, rfl⟩ := List.append_eq_nil_iff.mp hSplit.symm
        exact hRest
  | cons c s ih =>
      rw [matchRun, Bool.or_eq_true, Bool.and_eq_true, bne_iff_ne, ih]
      constructor
      · rintro (hRest | ⟨hc, run, tail, rfl, hRun, hRest⟩)
        · exact ⟨[], c :: s, rfl, by simp, hRest⟩
        · exact ⟨c :: run, tail, rfl, by simp [hc.symm, hRun], hRest⟩
      · rintro ⟨run, tail, hSplit, hRun, hRest⟩
        cases run with
        | nil => exact Or.inl (by rw [hSplit]; exact hRest)
        | cons d run =>
            obtain ⟨rfl, rfl⟩ := List.cons.inj hSplit
            rw [List.mem_cons, not_or] at hRun
            exact Or.inr ⟨Ne.symm hRun.1, run, tail, rfl, hRun.2, hRest⟩

/-- The matcher decides the reading. -/
theorem fullmatch_iff (pattern : List Atom) (s : Text) :
    fullmatch pattern s = true ↔ Matches pattern s := by
  induction pattern generalizing s with
  | nil =>
      cases s with
      | nil => simp [fullmatch, Matches.nil]
      | cons c s =>
          simp only [fullmatch, List.isEmpty_cons, Bool.false_eq_true, false_iff]
          nofun
  | cons atom pattern ih =>
      cases atom with
      | char c =>
          cases s with
          | nil =>
              simp only [fullmatch, Bool.false_eq_true, false_iff]
              nofun
          | cons d s =>
              rw [fullmatch, Bool.and_eq_true, beq_iff_eq, ih]
              constructor
              · rintro ⟨rfl, hRest⟩
                exact .char c hRest
              · intro hMatch
                cases hMatch with
                | char _ hRest => exact ⟨rfl, hRest⟩
      | anyRun =>
          rw [fullmatch, matchRun_iff]
          constructor
          · rintro ⟨run, tail, rfl, hRun, hRest⟩
            exact .anyRun hRun ((ih tail).mp hRest)
          · intro hMatch
            cases hMatch with
            | anyRun hRun hRest => exact ⟨_, _, rfl, hRun, (ih _).mpr hRest⟩

/-- A pattern without operators describes its own text only. -/
theorem matches_literal_append (literal : Text) (pattern : List Atom) (s : Text) :
    Matches (literal.map .char ++ pattern) s ↔
      ∃ tail, s = literal ++ tail ∧ Matches pattern tail := by
  induction literal generalizing s with
  | nil => simp
  | cons c literal ih =>
      constructor
      · intro hMatch
        cases hMatch with
        | char _ hRest =>
            obtain ⟨tail, rfl, hTail⟩ := (ih _).mp hRest
            exact ⟨tail, rfl, hTail⟩
      · rintro ⟨tail, rfl, hTail⟩
        exact .char c ((ih _).mpr ⟨tail, rfl, hTail⟩)

theorem matches_literal (literal s : Text) : Matches (literal.map .char) s ↔ s = literal := by
  have hAppend := matches_literal_append literal [] s
  rw [List.append_nil] at hAppend
  rw [hAppend]
  constructor
  · rintro ⟨tail, rfl, hTail⟩
    cases hTail
    exact List.append_nil literal
  · rintro rfl
    exact ⟨[], (List.append_nil s).symm, .nil⟩

def outHost : Text := "OUT H NONE".toList

/-- A completed guest swap-out. -/
def outGuest : Text := "OUT G NONE".toList

/-- The start of a guest swap-out, as the guest kernel logs it. -/
def outGuestStart : Text := "OUT G* NONE".toList

/-- `r"OUT G.* NONE"`. -/
def outGuestPattern : List Atom := compile "OUT G.* NONE".toList

/-- The type of the host swap-in that a group asks for. -/
def SwapKind.swapIn : SwapKind → Text
  | .swapSpace => "IN H NONE".toList
  | .swapCache => "IN H CACHE".toList
  | .wp => "IN H WP".toList

/-- The number that `contains_sequence` returns for a group. -/
def SwapKind.number : SwapKind → Nat
  | .swapSpace => 1
  | .swapCache => 2
  | .wp => 3

theorem matches_outGuestPattern_iff (s : Text) :
    Matches outGuestPattern s ↔
      ∃ mark, '\n' ∉ mark ∧ s = "OUT G".toList ++ mark ++ " NONE".toList := by
  have hPattern : outGuestPattern =
      "OUT G".toList.map .char ++ .anyRun :: " NONE".toList.map .char := by decide
  rw [hPattern, matches_literal_append]
  constructor
  · rintro ⟨tail, rfl, hTail⟩
    cases hTail with
    | anyRun hRun hRest =>
        rw [(matches_literal _ _).mp hRest]
        exact ⟨_, hRun, (List.append_assoc _ _ _).symm⟩
  · rintro ⟨mark, hMark, rfl⟩
    exact ⟨mark ++ " NONE".toList, List.append_assoc _ _ _,
      .anyRun hMark ((matches_literal _ _).mpr rfl)⟩

/-- The three pattern lists for one kind of host swap-in. -/
def SwapKind.group (kind : SwapKind) : List (List (List Atom)) :=
  [[outHost.map .char, outGuestPattern, kind.swapIn.map .char, outGuest.map .char],
    [outHost.map .char, outGuestPattern, outGuest.map .char, kind.swapIn.map .char],
    [outHost.map .char, kind.swapIn.map .char, outGuestPattern, outGuest.map .char]]

theorem patternGroups_eq :
    patternGroups = [SwapKind.swapSpace.group, SwapKind.swapCache.group, SwapKind.wp.group] := by
  decide

/-- The records of a page, by their types, contain a host swap-out, a host
swap-in of the kind after it, and a guest swap-out that starts and completes
after it. -/
def SwappedTwice (kind : SwapKind) (types : List Text) : Prop :=
  ∃ h i a b, h < i ∧ h < a ∧ a < b ∧ HoldsAt (· = outHost) types h ∧
    HoldsAt (· = kind.swapIn) types i ∧ HoldsAt (Matches outGuestPattern) types a ∧
    HoldsAt (· = outGuest) types b

theorem scan_eq_greedy (set : List (List Atom)) (types : List Text) :
    scan set types = greedy (set.map fullmatch) types := by
  induction types generalizing set with
  | nil => cases set <;> rfl
  | cons dataType types ih =>
      cases set with
      | nil => rfl
      | cons pattern patterns =>
          rw [scan, List.map_cons, greedy, ih patterns, ih (pattern :: patterns), List.map_cons]

/-- The scan for one pattern list finds it wherever its texts occur in order. -/
theorem scan_iff (set : List (List Atom)) (types : List Text) :
    scan set types = true ↔ OccursFrom 0 (set.map Matches) types := by
  have hReading : ((fun (p : Text → Bool) x => p x = true) ∘ fullmatch) = Matches := by
    funext pattern s
    exact propext (fullmatch_iff pattern s)
  rw [scan_eq_greedy, greedy_iff, List.map_map, hReading]

theorem swapIn_not_matches (kind : SwapKind) (s : Text) (h : s = kind.swapIn) :
    ¬ Matches outGuestPattern s := by
  rw [matches_outGuestPattern_iff]
  rintro ⟨mark, _, rfl⟩
  cases kind <;> cases h

theorem swapIn_ne_outGuest (kind : SwapKind) (s : Text) (h : s = kind.swapIn) : ¬ s = outGuest := by
  subst h
  cases kind <;> decide

/-- The three alternatives of a group miss no interleaving. -/
theorem group_any_iff (kind : SwapKind) (types : List Text) :
    (kind.group.any fun set => scan set types) = true ↔ SwappedTwice kind types := by
  have hLiteral (literal : Text) : Matches (literal.map .char) = (· = literal) := by
    funext s
    exact propext (matches_literal literal s)
  simp only [SwapKind.group, List.any_cons, List.any_nil, Bool.or_false, Bool.or_eq_true, scan_iff,
    List.map_cons, List.map_nil, hLiteral]
  exact occurs_woven_iff (swapIn_not_matches kind) (swapIn_ne_outGuest kind) types

/-- The groups are tried in the order of their numbers. -/
theorem containsSequence_cases (entries : List Entry) :
    (∃ kind : SwapKind, containsSequence entries = kind.number ∧
      SwappedTwice kind (entries.map scannedType) ∧
      ∀ other : SwapKind, other.number < kind.number →
        ¬ SwappedTwice other (entries.map scannedType)) ∨
    (containsSequence entries = 0 ∧
      ∀ kind : SwapKind, ¬ SwappedTwice kind (entries.map scannedType)) := by
  simp only [← group_any_iff, containsSequence, patternGroups_eq, List.findIdx?_cons]
  cases hSpace : SwapKind.swapSpace.group.any fun set => scan set (entries.map scannedType) with
  | true =>
      refine Or.inl ⟨.swapSpace, rfl, hSpace, ?_⟩
      intro other hLess
      cases other <;> simp [SwapKind.number] at hLess
  | false =>
      cases hCache : SwapKind.swapCache.group.any fun set => scan set (entries.map scannedType) with
      | true =>
          refine Or.inl ⟨.swapCache, rfl, hCache, ?_⟩
          intro other hLess
          cases other <;> simp [SwapKind.number, hSpace] at hLess ⊢
      | false =>
          cases hWp : SwapKind.wp.group.any fun set => scan set (entries.map scannedType) with
          | true =>
              refine Or.inl ⟨.wp, rfl, hWp, ?_⟩
              intro other hLess
              cases other <;> simp [SwapKind.number, hSpace, hCache] at hLess ⊢
          | false =>
              refine Or.inr ⟨rfl, ?_⟩
              intro kind
              cases kind <;> simp [hSpace, hCache, hWp]

theorem containsSequence_ne_zero_iff (entries : List Entry) :
    containsSequence entries ≠ 0 ↔ ∃ kind, SwappedTwice kind (entries.map scannedType) := by
  rcases containsSequence_cases entries with ⟨kind, hNumber, hKind, _⟩ | ⟨hZero, hNone⟩
  · refine iff_of_true ?_ ⟨kind, hKind⟩
    rw [hNumber]
    cases kind <;> decide
  · refine iff_of_false (fun h => h hZero) ?_
    rintro ⟨kind, hKind⟩
    exact hNone kind hKind

/-- The four records of a double swap stand at four places. -/
theorem four_le_length_of_containsSequence {entries : List Entry}
    (h : containsSequence entries ≠ 0) : 4 ≤ entries.length := by
  obtain ⟨kind, h, i, a, b, hhi, hha, hab, hOut, hIn, hStart, hDone⟩ :=
    (containsSequence_ne_zero_iff entries).mp h
  have hStartPlace : i ≠ a := hIn.ne (swapIn_not_matches kind) hStart
  have hDonePlace : i ≠ b := hIn.ne (swapIn_ne_outGuest kind) hDone
  have hLast := hDone.lt_length
  have hSwapIn := hIn.lt_length
  rw [List.length_map] at hLast hSwapIn
  omega

/-- The whole type of a record, with one blank between its tokens. -/
def Entry.fullType (entry : Entry) : Text := joinWords (words entry.dataType)

/-- The numbers of the kinds of double swap that a page went through. -/
def swapNumbers (types : List Text) : Set Nat :=
  {k | ∃ kind : SwapKind, kind.number = k ∧ SwappedTwice kind types}

theorem map_scannedType {entries : List Entry}
    (h : ∀ entry ∈ entries, (words entry.dataType).length = 3) :
    entries.map scannedType = entries.map Entry.fullType := by
  apply List.map_congr_left
  intro entry hEntry
  rw [scannedType, Entry.fullType, List.take_of_length_le (h entry hEntry).le]

/-- On records with types of three tokens, `contains_sequence` returns the
least number of a kind of double swap that they contain, and zero when they
contain none; the one-pass scans of a group decide whether its kind occurs. -/
theorem containsSequence_isLeast {entries : List Entry}
    (hTypes : ∀ entry ∈ entries, (words entry.dataType).length = 3) :
    ((swapNumbers (entries.map Entry.fullType)).Nonempty →
      IsLeast (swapNumbers (entries.map Entry.fullType)) (containsSequence entries)) ∧
    (swapNumbers (entries.map Entry.fullType) = ∅ → containsSequence entries = 0) ∧
    ∀ (kind : SwapKind) (group : List (List (List Atom))),
      patternGroups[kind.number - 1]? = some group →
        ((group.any fun set => scan set (entries.map Entry.fullType)) = true ↔
          SwappedTwice kind (entries.map Entry.fullType)) := by
  have hCases := containsSequence_cases entries
  rw [map_scannedType hTypes] at hCases
  refine ⟨?_, ?_, ?_⟩
  · rintro ⟨k, some, _, hSome⟩
    rcases hCases with ⟨kind, hNumber, hKind, hLeast⟩ | ⟨_, hNone⟩
    · rw [hNumber]
      refine ⟨⟨kind, rfl, hKind⟩, ?_⟩
      rintro k ⟨other, rfl, hOther⟩
      exact not_lt.mp fun hLess => hLeast other hLess hOther
    · exact absurd hSome (hNone some)
  · intro hEmpty
    rcases hCases with ⟨kind, _, hKind, _⟩ | ⟨hZero, _⟩
    · have hMem : kind.number ∈ swapNumbers (entries.map Entry.fullType) := ⟨kind, rfl, hKind⟩
      rw [hEmpty] at hMem
      exact hMem.elim
    · exact hZero
  · intro kind group hGroup
    have hKind : group = kind.group := by
      rw [patternGroups_eq] at hGroup
      cases kind <;> exact (Option.some.inj hGroup).symm
    rw [hKind]
    exact group_any_iff kind _

/-- Two interleaved double swaps, one through the swap cache and one through
the swap space. The guest marks its swap-outs twice. -/
def interleavedEntries : List Entry :=
  ["OUT G* NONE", "OUT H NONE", "IN H CACHE", "OUT G* NONE", "OUT G* NONE", "OUT G NONE",
    "IN H NONE"].map fun dataType => ⟨"00:00:000000001".toList, dataType.toList⟩

theorem interleavedEntries_isLeast :
    IsLeast (swapNumbers (interleavedEntries.map Entry.fullType)) 1 := by
  have hTypes : ∀ entry ∈ interleavedEntries, (words entry.dataType).length = 3 := by
    have hAll : interleavedEntries.all (fun entry => (words entry.dataType).length == 3) = true :=
      by decide +kernel
    intro entry hEntry
    simpa using List.all_eq_true.mp hAll entry hEntry
  have hOne : containsSequence interleavedEntries = 1 := by decide +kernel
  obtain ⟨hLeast, hZero, _⟩ := containsSequence_isLeast hTypes
  rw [hOne] at hLeast hZero
  apply hLeast
  rw [Set.nonempty_iff_ne_empty]
  intro hEmpty
  exact absurd (hZero hEmpty) (by decide)

end Analyser
