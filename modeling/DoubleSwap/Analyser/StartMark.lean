import DoubleSwap.Analyser.Interleaving

/-! The mark of a guest swap-out that starts. The guest kernel logs the start
of a swap-out as `OUT G*` and its completion as `OUT G`; the pattern for the
first is `OUT G.* NONE`, in which the star is an operator. -/
namespace Analyser

open Text Occurrence

/-- A start record, literally, stands after a host swap-out and before a
completed guest swap-out. -/
def StartMarked (types : List Text) : Prop :=
  ∃ h a b, h < a ∧ a < b ∧ HoldsAt (· = outHost) types h ∧
    HoldsAt (· = outGuestStart) types a ∧ HoldsAt (· = outGuest) types b

/-- The records strictly between the first host swap-out and the last
completed guest swap-out. -/
def guestWindow (types : List Text) : List Text := between (· = outHost) (· = outGuest) types

/-- The records after the first host swap-out. -/
def afterHostSwapOut (types : List Text) : List Text := afterFirst (· = outHost) types

/-- What is in the window stands between a swap-out of the host and one of the
guest. -/
theorem exists_guestWindow_iff (q : Text → Prop) (types : List Text) :
    (∃ s ∈ guestWindow types, q s) ↔ OccursFrom 0 [(· = outHost), q, (· = outGuest)] types := by
  rw [guestWindow, exists_between_iff]
  simp only [decide_eq_true_eq]

theorem exists_afterHostSwapOut_iff (q : Text → Prop) (types : List Text) :
    (∃ s ∈ afterHostSwapOut types, q s) ↔ OccursFrom 0 [(· = outHost), q] types := by
  rw [afterHostSwapOut, exists_afterFirst_iff]
  simp only [decide_eq_true_eq]

theorem startMarked_iff (types : List Text) :
    StartMarked types ↔ outGuestStart ∈ guestWindow types := by
  have hWindow := exists_guestWindow_iff (· = outGuestStart) types
  simp only [exists_eq_right] at hWindow
  rw [hWindow]
  constructor
  · rintro ⟨h, a, b, hha, hab, hOut, hStart, hDone⟩
    exact ⟨h, Nat.zero_le h, hOut, a, hha, hStart, b, hab, hDone, trivial⟩
  · rintro ⟨h, _, hOut, a, hha, hStart, b, hab, hDone, _⟩
    exact ⟨h, a, b, hha, hab, hOut, hStart, hDone⟩

/-- Both the swap-in and the guest swap-out may be counted from the first host
swap-out, whichever ones they were found after. -/
theorem swappedTwice_iff (kind : SwapKind) (types : List Text) :
    SwappedTwice kind types ↔ kind.swapIn ∈ afterHostSwapOut types ∧
      ∃ s ∈ guestWindow types, Matches outGuestPattern s := by
  have hAfter := exists_afterHostSwapOut_iff (· = kind.swapIn) types
  simp only [exists_eq_right] at hAfter
  rw [hAfter, exists_guestWindow_iff]
  constructor
  · rintro ⟨h, i, a, b, hhi, hha, hab, hOut, hIn, hStart, hDone⟩
    exact ⟨⟨h, Nat.zero_le h, hOut, i, hhi, hIn, trivial⟩,
      ⟨h, Nat.zero_le h, hOut, a, hha, hStart, b, hab, hDone, trivial⟩⟩
  · rintro ⟨⟨h, _, hOut, i, hhi, hIn, _⟩, ⟨k, _, hOther, a, hka, hStart, b, hab, hDone, _⟩⟩
    rcases le_total h k with hFirst | hFirst
    · exact ⟨h, i, a, b, hhi, hFirst.trans_lt hka, hab, hOut, hIn, hStart, hDone⟩
    · exact ⟨k, i, a, b, hFirst.trans_lt hhi, hka, hab, hOther, hIn, hStart, hDone⟩

/-- A double swap is reported with a start record in its place exactly where
the window of the guest holds such a record, or holds none that passes for one,
or where no host swap-in follows the first host swap-out. -/
theorem classified_startMarked_iff (entries : List Entry) :
    (containsSequence entries ≠ 0 → StartMarked (entries.map scannedType)) ↔
      outGuestStart ∈ guestWindow (entries.map scannedType) ∨
        (∀ s ∈ guestWindow (entries.map scannedType), fullmatch outGuestPattern s = false) ∨
        ∀ kind : SwapKind, kind.swapIn ∉ afterHostSwapOut (entries.map scannedType) := by
  rw [containsSequence_ne_zero_iff, startMarked_iff]
  simp only [swappedTwice_iff, ← fullmatch_iff]
  constructor
  · intro hClaim
    by_cases hStart : outGuestStart ∈ guestWindow (entries.map scannedType)
    · exact Or.inl hStart
    · refine Or.inr ?_
      by_cases hNone : ∀ kind : SwapKind,
          kind.swapIn ∉ afterHostSwapOut (entries.map scannedType)
      · exact Or.inr hNone
      · obtain ⟨kind, hKind⟩ := not_forall_not.mp hNone
        refine Or.inl ?_
        intro s hs
        rw [← Bool.not_eq_true]
        intro hMatch
        exact hStart (hClaim ⟨kind, hKind, s, hs, hMatch⟩)
  · rintro hCondition ⟨kind, hKind, s, hs, hMatch⟩
    rcases hCondition with hStart | hUnmatched | hNone
    · exact hStart
    · exact absurd hMatch (by simp [hUnmatched s hs])
    · exact absurd hKind (hNone kind)

/-- Two completed guest swap-outs; the start records of both were lost. -/
def lostStarts : List Entry :=
  ["OUT H NONE", "OUT G NONE", "IN H NONE", "OUT G NONE"].map fun dataType =>
    ⟨"00:00:000000001".toList, dataType.toList⟩

theorem lostStarts_classified :
    ¬ (containsSequence lostStarts ≠ 0 → StartMarked (lostStarts.map scannedType)) := by
  rw [startMarked_iff]
  decide +kernel

end Analyser
