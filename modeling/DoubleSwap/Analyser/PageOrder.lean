import DoubleSwap.Analyser.Merge
import DoubleSwap.Loggers.Clock

/-! The order of the records of one page. The list that is classified is
sorted by the value of the stamps; whether that is the order of time depends on
what the stamps keep of it. -/
namespace Analyser

open Text Loggers

def validStamp (entry : Entry) : Bool := (timeToMicroseconds entry.timestamp).isOk

/-- The key of an entry whose stamp is readable. -/
def stampKey (entry : Entry) : Int := (timeToMicroseconds entry.timestamp).toOption.getD 0

/-- A readable stamp has its key. -/
theorem timeToMicroseconds_of_valid {entry : Entry} (h : validStamp entry = true) :
    timeToMicroseconds entry.timestamp = .ok (stampKey entry) := by
  rw [validStamp] at h
  rw [stampKey]
  cases hKey : timeToMicroseconds entry.timestamp with
  | error e =>
      rw [hKey] at h
      cases h
  | ok key => rfl

/-- Where all stamps are readable the sort is the stable one by their keys. -/
theorem sortedEntries_of_valid {entries : List Entry}
    (h : ∀ entry ∈ entries, validStamp entry = true) :
    sortedEntries entries = .ok (StableSort.sortBy stampKey entries) :=
  StableSort.sortByM_eq_ok (fun entry hEntry => timeToMicroseconds_of_valid (h entry hEntry))

/-- A record of a page, with the instant at which it was stamped. -/
structure TimedRecord where
  time : Timespec
  dataType : Text
  deriving DecidableEq, Repr

def TimedRecord.entry (r : TimedRecord) : Entry := ⟨stamp r.time, r.dataType⟩

def Chronological (records : List TimedRecord) : Prop :=
  records.Pairwise fun first second => first.time.instant ≤ second.time.instant

/-- The records of one page, in the order in which they are classified. -/
def handed (records : List TimedRecord) : List TimedRecord :=
  StableSort.sortBy (fun r => (r.time.stampValue : Int)) records

/-- The records of a page that lie in one day. -/
def SameDay (records : List TimedRecord) : Prop :=
  ∀ r ∈ records, ∀ s ∈ records, r.time.day = s.time.day

/-- The earlier of two records has at most as many nanoseconds as the later
one, give or take 60000000 for each minute between them. When the later one
was read first, equality is excluded too. -/
def StampsAgree (first second : TimedRecord) : Prop :=
  (first.time.instant < second.time.instant →
    first.time.tvNsec ≤
      second.time.tvNsec + 60000000 * (second.time.minute - first.time.minute)) ∧
  (second.time.instant < first.time.instant →
    second.time.tvNsec <
      first.time.tvNsec + 60000000 * (first.time.minute - second.time.minute))

theorem stampKey_entry (r : TimedRecord) : stampKey r.entry = r.time.stampValue := by
  rw [stampKey, TimedRecord.entry, timeToMicroseconds_stamp]
  rfl

theorem sortedEntries_map_entry (records : List TimedRecord) :
    sortedEntries (records.map TimedRecord.entry) =
      .ok ((handed records).map TimedRecord.entry) := by
  have hValid : ∀ entry ∈ records.map TimedRecord.entry, validStamp entry = true := by
    intro entry hEntry
    obtain ⟨r, _, rfl⟩ := List.mem_map.mp hEntry
    rw [validStamp, TimedRecord.entry, timeToMicroseconds_stamp]
    rfl
  rw [sortedEntries_of_valid hValid, StableSort.sortBy_map, handed]
  simp only [stampKey_entry]

/-- Within a day, stamps compare by minute and then by nanoseconds, at
60000000 to the minute. -/
theorem stampValue_sub {first second : Timespec} (hDay : first.day = second.day)
    (h : first.instant ≤ second.instant) :
    second.stampValue + first.tvNsec =
      first.stampValue + (second.tvNsec + 60000000 * (second.minute - first.minute)) := by
  have hFirst := first.minute_eq_day_add
  have hSecond := second.minute_eq_day_add
  have hMinutes := Timespec.minute_le_of_instant_le h
  simp only [Timespec.stampValue]
  rw [hDay] at hFirst
  omega

/-- For two records of a day the sort agrees with the clock if their stamps do. -/
theorem agrees_iff_stampsAgree {first second : TimedRecord}
    (hDay : first.time.day = second.time.day) :
    StableSort.Agrees (fun r : TimedRecord => (r.time.stampValue : Int))
      (fun r => r.time.instant) first second ↔ StampsAgree first second := by
  simp only [StableSort.Agrees, StampsAgree]
  apply and_congr
  · apply imp_congr_right
    intro h
    have hValues := stampValue_sub hDay h.le
    omega
  · apply imp_congr_right
    intro h
    have hValues := stampValue_sub hDay.symm h.le
    omega

/-- For instants of one day the stamps are in order exactly when the
nanoseconds are, up to 60000000 for each minute between them; and the records
of a page are classified in the order of time exactly when every two of them
have stamps in order. -/
theorem handed_chronological_iff {first second : Timespec} (hDay : first.day = second.day)
    (hLess : first.instant < second.instant) {records : List TimedRecord}
    (hRecords : SameDay records) :
    (∃ key key', timeToMicroseconds (stamp first) = .ok key ∧
      timeToMicroseconds (stamp second) = .ok key' ∧
      (key ≤ key' ↔
        first.tvNsec ≤ second.tvNsec + 60000000 * (second.minute - first.minute))) ∧
    sortedEntries (records.map TimedRecord.entry) =
      .ok ((handed records).map TimedRecord.entry) ∧
    (handed records).Perm records ∧
    (Chronological (handed records) ↔ records.Pairwise StampsAgree) := by
  refine ⟨?_, sortedEntries_map_entry records, StableSort.perm_sortBy _ records, ?_⟩
  · have hValues := stampValue_sub hDay hLess.le
    refine ⟨_, _, timeToMicroseconds_stamp first, timeToMicroseconds_stamp second, ?_⟩
    omega
  · rw [Chronological, handed,
      StableSort.pairwise_sortBy_iff _ (fun r : TimedRecord => r.time.instant)]
    apply List.Pairwise.iff_of_mem
    intro first second hFirst hSecond
    exact agrees_iff_stampsAgree (hRecords first hFirst second hSecond)

/-- A host swap-out, and the swap-in of the page two tenths of a second later. -/
def swapOut : TimedRecord := ⟨⟨1700000000, 900000000, by decide⟩, "OUT H NONE".toList⟩

def swapIn : TimedRecord := ⟨⟨1700000001, 100000000, by decide⟩, "IN H NONE".toList⟩

/-- The same swap-in with the nanoseconds of a second that has not wrapped. -/
def promptSwapIn : TimedRecord := ⟨⟨1700000000, 950000000, by decide⟩, "IN H NONE".toList⟩

theorem promptSwapIn_chronological :
    (∃ key key', timeToMicroseconds (stamp swapOut.time) = .ok key ∧
      timeToMicroseconds (stamp promptSwapIn.time) = .ok key' ∧
      (key ≤ key' ↔ 900000000 ≤ 950000000 + 60000000 * 0)) ∧
    Chronological (handed [promptSwapIn, swapOut]) := by
  have hSameDay : SameDay [promptSwapIn, swapOut] := by
    unfold SameDay
    decide
  have hDay : swapOut.time.day = promptSwapIn.time.day := by decide
  obtain ⟨hKeys, _, _, hOrder⟩ := handed_chronological_iff hDay (by decide) hSameDay
  refine ⟨hKeys, hOrder.mpr ?_⟩
  unfold StampsAgree
  decide

/-- The swap-in is classified before the swap-out that it follows. -/
theorem swapIn_before_swapOut :
    swapOut.time.day = swapIn.time.day ∧ swapOut.time.instant < swapIn.time.instant ∧
      (∃ key key', timeToMicroseconds (stamp swapOut.time) = .ok key ∧
        timeToMicroseconds (stamp swapIn.time) = .ok key' ∧ ¬ key ≤ key') ∧
      sortedEntries [swapOut.entry, swapIn.entry] = .ok [swapIn.entry, swapOut.entry] ∧
      ¬ Chronological (handed [swapOut, swapIn]) := by
  refine ⟨by decide, by decide, ⟨80880000000, 80080000000, ?_, ?_, by decide⟩, ?_, ?_⟩
  · decide +kernel
  · decide +kernel
  · decide +kernel
  · unfold Chronological
    decide +kernel

end Analyser
