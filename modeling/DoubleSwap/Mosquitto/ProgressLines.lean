import DoubleSwap.Data.Milestones
import DoubleSwap.Mosquitto.MessageStore

/-! When `persist__message_store_save` writes its progress lines. Its thresholds
are tenths of the number of messages in the store less 53, while the loop counts
the messages that it persists. -/
namespace Mosquitto

open CInt (toInt toInt_eq_some toInt_of_mem)
open Milestones (written due due_zero due_succ due_lt due_total OnSchedule onSchedule_of_exact
  onSchedule_of_low tenths percentage_eq lines_due lines_total)

/-- The number of messages that are persisted. -/
def persistedCount (store : List MsgStore) : Nat :=
  store.countP fun stored => stored.persistedTopic.isSome

/-- The file after the messages are written, if no write fails. -/
def writeAll {σ : Type} (write : WriteChunk σ) : List MsgStore → σ → Option σ
  | [], file => some file
  | stored :: rest, file =>
      match stored.persistedTopic with
      | none => writeAll write rest file
      | some topic =>
          match write (stored.chunk topic) file with
          | (rc, file') => if rc ≠ 0 then none else writeAll write rest file'

/-- The number of messages that the thresholds are tenths of. -/
def Broker.messages (broker : Broker) : Int := broker.msgStoreCount - 53

/-- The threshold of a line. -/
def threshold (messages : Int) (line : Nat) : Int := (messages * (10 * (line + 1) : Nat)).tdiv 100

/-- The line of a percentage, written right after the message that completes it. -/
def percentageLine (broker : Broker) (total percentage : Nat) : Int × Int :=
  (broker.timeOfDay (total * percentage / 100) - broker.timeOfDay 0, percentage)

/-- The lines of the percentages that are complete after `done` of the messages. -/
def linesDue (broker : Broker) (total done : Nat) : List (Int × Int) :=
  (tenths.filter fun percentage => total * percentage / 100 ≤ done).map
    (percentageLine broker total)

/-- The function succeeds, the first messages of the store write the lines that
are due after the ones of them that are persisted, and so in the end there are ten. -/
def LinesOnTime {σ : Type} (broker : Broker) (write : WriteChunk σ) (st : SaveState σ) : Prop :=
  (∀ n, ∃ reached,
    saveMessages broker write (broker.msgStore.take n) (st.start broker.messages) = .ok reached ∧
      reached.percentages = st.percentages ++ linesDue broker (persistedCount broker.msgStore)
        (persistedCount (broker.msgStore.take n))) ∧
  ∃ final, messageStoreSave broker write st = (.returned 0, final) ∧
    final.percentages = st.percentages ++
      tenths.map (percentageLine broker (persistedCount broker.msgStore))

theorem threshold_zero (messages : Int) : threshold messages 0 = messages.tdiv 10 := by
  show (messages * 10).tdiv (10 * 10) = _
  exact Int.mul_tdiv_mul_of_pos_left messages 10 (by decide)

/-- The counters after `done` persisted messages. -/
structure Tracks {σ : Type} (broker : Broker) (done : Nat) (st : SaveState σ) : Prop where
  keyNumber : st.keyNumber = done
  keysProcessed : st.keysProcessed = done
  percentage : st.currentPercentage =
    (10 * (written (threshold broker.messages) done + 1) : Nat)
  keysToProcess : st.keysToProcess =
    threshold broker.messages (written (threshold broker.messages) done)
  /-- The product that the threshold was divided from. -/
  product : written (threshold broker.messages) done ≠ 0 →
    broker.messages * (10 * (written (threshold broker.messages) done + 1) : Nat) ∈
      Set.Ico (-2 ^ 31) (2 ^ 31)

variable {σ : Type} {broker : Broker} {write : WriteChunk σ}

theorem tracks_start (broker : Broker) (st : SaveState σ) :
    Tracks broker 0 (st.start broker.messages) where
  keyNumber := rfl
  keysProcessed := rfl
  percentage := rfl
  keysToProcess := (threshold_zero broker.messages).symm
  product := fun hLine => (hLine rfl).elim

/-- The next percentage is defined when neither it nor its product overflows. -/
theorem raise_eq_some {st next : SaveState σ} :
    st.raise broker = some next ↔
      st.currentPercentage + 10 ∈ Set.Ico (-2 ^ 31) (2 ^ 31) ∧
        broker.messages ∈ Set.Ico (-2 ^ 31) (2 ^ 31) ∧
        broker.messages * (st.currentPercentage + 10) ∈ Set.Ico (-2 ^ 31) (2 ^ 31) ∧
        next = { st with
          currentPercentage := st.currentPercentage + 10
          keysToProcess := (broker.messages * (st.currentPercentage + 10)).tdiv 100 } := by
  simp only [SaveState.raise, bind, Option.bind_eq_some_iff, toInt_eq_some, pure,
    Option.some.injEq, Set.mem_Ico, Broker.messages]
  constructor
  · rintro ⟨_, ⟨rfl, hPercentage⟩, _, ⟨rfl, hMessages⟩, _, ⟨rfl, hProduct⟩, rfl⟩
    exact ⟨hPercentage, hMessages, hProduct, rfl⟩
  · rintro ⟨hPercentage, hMessages, hProduct, rfl⟩
    exact ⟨_, ⟨rfl, hPercentage⟩, _, ⟨rfl, hMessages⟩, _, ⟨rfl, hProduct⟩, rfl⟩

/-- A message more is counted, and the line that is due is written. -/
theorem report_step {done : Nat} {st next : SaveState σ} (h : Tracks broker done st)
    (hReport : st.report broker = some next) :
    let lines := written (threshold broker.messages) done
    Tracks broker (done + 1) next ∧ next.file = st.file ∧
      if threshold broker.messages lines ≤ (done + 1 : Nat) then
        next.percentages = st.percentages ++
          [(broker.timeOfDay (done + 1) - broker.timeOfDay 0, ((10 * (lines + 1) : Nat) : Int))]
      else next.percentages = st.percentages := by
  intro lines
  have hNext : ((10 * (lines + 1) : Nat) : Int) + 10 = (10 * (lines + 1 + 1) : Nat) := by
    push_cast
    ring
  simp only [SaveState.report, bind, Option.bind_eq_some_iff, toInt_eq_some, h.keyNumber,
    h.keysProcessed, h.percentage, h.keysToProcess] at hReport
  obtain ⟨_, ⟨rfl, hBound⟩, hRest⟩ := hReport
  have hWritten : written (threshold broker.messages) (done + 1) =
      if threshold broker.messages lines ≤ (done + 1 : Nat) then lines + 1 else lines := rfl
  split_ifs at hRest hWritten ⊢ with hDue
  · obtain ⟨_, _, hProduct, rfl⟩ := raise_eq_some.mp hRest
    change broker.messages * (((10 * (lines + 1) : Nat) : Int) + 10) ∈ _ at hProduct
    rw [hNext] at hProduct
    refine ⟨⟨rfl, rfl, ?_, ?_, ?_⟩, rfl, rfl⟩
    · rw [hWritten]
      exact hNext
    · show (broker.messages * (((10 * (lines + 1) : Nat) : Int) + 10)).tdiv 100 = _
      rw [hNext, hWritten]
      rfl
    · rw [hWritten]
      exact fun _ => hProduct
  · obtain rfl := Option.some.inj hRest
    refine ⟨⟨rfl, rfl, ?_, ?_, ?_⟩, rfl, rfl⟩
    · rw [hWritten]
    · rw [hWritten]
    · rw [hWritten]
      exact h.product

/-- A message more can be counted when the number of messages fits an `int` and so
do the next percentage and its product. -/
theorem report_ne_none {done : Nat} {st : SaveState σ} (h : Tracks broker done st)
    (hBound : done + 1 < 2 ^ 31) (hMessages : broker.messages ∈ Set.Ico (-2 ^ 31) (2 ^ 31))
    (hDue : let lines := written (threshold broker.messages) done
      threshold broker.messages lines ≤ (done + 1 : Nat) →
        lines < 10 ∧ broker.messages * (10 * (lines + 1 + 1) : Nat) ∈ Set.Ico (-2 ^ 31) (2 ^ 31)) :
    ∃ next, st.report broker = some next := by
  have hNumber : toInt (st.keyNumber + 1) = some ((done : Int) + 1) := by
    rw [toInt_eq_some, h.keyNumber]
    omega
  simp only [SaveState.report, hNumber, bind, Option.bind_some, h.keysProcessed, h.percentage,
    h.keysToProcess]
  split_ifs with hReached
  · obtain ⟨hFew, hProduct⟩ := hDue hReached
    refine ⟨_, raise_eq_some.mpr ⟨?_, hMessages, ?_, rfl⟩⟩
    · rw [Set.mem_Ico]
      push_cast
      omega
    · have hNext : ((10 * (written (threshold broker.messages) done + 1) : Nat) : Int) + 10 =
          (10 * (written (threshold broker.messages) done + 1 + 1) : Nat) := by
        push_cast
        ring
      show broker.messages * (_ + 10) ∈ _
      rw [hNext]
      exact hProduct
  · exact ⟨_, rfl⟩

/-- A message whose write succeeds leaves the rest to the report. -/
theorem persistMessage_of_write {stored : MsgStore} {topic : CString} {st : SaveState σ} {file : σ}
    (hWrite : write (stored.chunk topic) st.file = (0, file)) :
    ∃ finished : SaveState σ, finished.file = file ∧ finished.percentages = st.percentages ∧
      (∀ done, Tracks broker done st → Tracks broker done finished) ∧
      persistMessage broker write stored topic st =
        match finished.report broker with
        | none => .error (.undefined, finished)
        | some next => .ok next := by
  refine ⟨({ st.log broker stored "OUT G* NONE".toList with file := file }).log broker stored
    "OUT G NONE".toList, rfl, rfl, ?_, ?_⟩
  · intro done h
    exact ⟨h.keyNumber, h.keysProcessed, h.percentage, h.keysToProcess, h.product⟩
  · have hStarted : write (stored.chunk topic) (st.log broker stored "OUT G* NONE".toList).file =
        (0, file) := hWrite
    rw [persistMessage]
    simp only [hStarted]
    exact if_neg (not_not.mpr rfl)

theorem write_of_persistMessage {stored : MsgStore} {topic : CString} {st next : SaveState σ}
    (h : persistMessage broker write stored topic st = .ok next) :
    ∃ file, write (stored.chunk topic) st.file = (0, file) := by
  rcases hWrite : write (stored.chunk topic) st.file with ⟨rc, file⟩
  by_cases hFails : rc = 0
  · exact ⟨file, by rw [hFails]⟩
  · have hStarted : write (stored.chunk topic) (st.log broker stored "OUT G* NONE".toList).file =
        (rc, file) := hWrite
    simp only [persistMessage, hStarted, ne_eq, hFails, not_false_eq_true, if_true] at h
    cases h

/-- A message that is persisted is reported after its write. -/
theorem report_of_persistMessage {stored : MsgStore} {topic : CString} {st next : SaveState σ}
    (h : persistMessage broker write stored topic st = .ok next) :
    ∃ finished : SaveState σ, finished.percentages = st.percentages ∧
      (∀ done, Tracks broker done st → Tracks broker done finished) ∧
      finished.report broker = some next := by
  obtain ⟨file, hWrite⟩ := write_of_persistMessage h
  obtain ⟨finished, _, hLines, hTracks, hResult⟩ := persistMessage_of_write hWrite
  rw [hResult] at h
  refine ⟨finished, hLines, hTracks, ?_⟩
  split at h
  · cases h
  · next hReport =>
      rw [hReport]
      exact congrArg some (Except.ok.inj h)

theorem persistedCount_cons_none {stored : MsgStore} (h : stored.persistedTopic = none)
    (rest : List MsgStore) : persistedCount (stored :: rest) = persistedCount rest := by
  simp [persistedCount, h]

theorem persistedCount_cons_some {stored : MsgStore} {topic : CString}
    (h : stored.persistedTopic = some topic) (rest : List MsgStore) :
    persistedCount (stored :: rest) = persistedCount rest + 1 := by
  simp [persistedCount, h]

/-- A loop that comes to its end has counted its messages, and written as many
lines as its thresholds make of them. -/
theorem saveMessages_tracks {store : List MsgStore} {st final : SaveState σ} {done : Nat}
    (h : Tracks broker done st) (hRun : saveMessages broker write store st = .ok final) :
    Tracks broker (done + persistedCount store) final ∧
      final.percentages.length + written (threshold broker.messages) done =
        st.percentages.length +
          written (threshold broker.messages) (done + persistedCount store) := by
  induction store generalizing st done with
  | nil =>
      obtain rfl : st = final := Except.ok.inj hRun
      exact ⟨h, rfl⟩
  | cons stored rest ih =>
      cases hTopic : stored.persistedTopic with
      | none =>
          rw [persistedCount_cons_none hTopic]
          simp only [saveMessages, hTopic] at hRun
          exact ih h hRun
      | some topic =>
          rw [persistedCount_cons_some hTopic]
          simp only [saveMessages, hTopic] at hRun
          cases hResult : persistMessage broker write stored topic st with
          | error ended =>
              rw [hResult] at hRun
              cases hRun
          | ok next =>
              rw [hResult] at hRun
              obtain ⟨finished, hLines, hTracks, hReport⟩ := report_of_persistMessage hResult
              obtain ⟨hNext, _, hAdded⟩ := report_step (hTracks done h) hReport
              obtain ⟨hFinal, hLength⟩ := ih hNext hRun
              have hCount : done + (persistedCount rest + 1) = done + 1 + persistedCount rest := by
                omega
              have hWritten : next.percentages.length + written (threshold broker.messages) done =
                  st.percentages.length + written (threshold broker.messages) (done + 1) := by
                rw [written]
                split_ifs at hAdded ⊢ with hDue
                · rw [hAdded, List.length_append, List.length_singleton, hLines]
                  omega
                · rw [hAdded, hLines]
              rw [hCount]
              exact ⟨hFinal, by omega⟩

/-- The counters and the file after `done` of `total` messages. -/
structure OnTime (broker : Broker) (file : List (Int × Int)) (total done : Nat)
    (st : SaveState σ) : Prop where
  tracks : Tracks broker done st
  lines : st.percentages = file ++ linesDue broker total done

theorem linesDue_eq (broker : Broker) {total done : Nat} (hTen : 10 ≤ total) (h : done ≤ total) :
    linesDue broker total done =
      (List.range (due total 10 done)).map fun j => percentageLine broker total (10 * (j + 1)) :=
  lines_due hTen (percentageLine broker total) h

theorem OnTime.start (hTen : 10 ≤ persistedCount broker.msgStore) (st : SaveState σ) :
    OnTime broker st.percentages (persistedCount broker.msgStore) 0
      (st.start broker.messages) where
  tracks := tracks_start broker st
  lines := by
    rw [linesDue_eq broker hTen (Nat.zero_le _), due_zero (by decide) hTen]
    exact (List.append_nil _).symm

theorem OnTime.report {file : List (Int × Int)} {total done : Nat} {st next : SaveState σ}
    (hTen : 10 ≤ total) (hSchedule : OnSchedule total 10 (threshold broker.messages))
    (h : OnTime broker file total done st) (hDone : done < total)
    (hReport : st.report broker = some next) : OnTime broker file total (done + 1) next := by
  obtain ⟨hTracks, _, hAdded⟩ := report_step h.tracks hReport
  have hDue := due_succ (show 0 < 10 by decide) hTen done
  have hLines := h.lines
  have hNow := hSchedule (done + 1) hDone
  rw [linesDue_eq broker hTen hDone.le] at hLines
  rw [written, hSchedule done hDone.le] at hNow
  rw [hSchedule done hDone.le] at hAdded
  refine ⟨hTracks, ?_⟩
  rw [linesDue_eq broker hTen hDone, ← hNow]
  split_ifs at hAdded hNow ⊢ with hWritten
  · have hReached : total * (due total 10 done + 1) / 10 = done + 1 := by
      split_ifs at hDue
      · exact hDue.2
      · omega
    rw [hAdded, hLines, List.range_succ, List.map_append, List.map_singleton,
      List.append_assoc, percentageLine, percentage_eq, hReached]
  · rw [hAdded, hLines]

/-- The largest product fits an `int`, and so do the others. -/
theorem product_mem {messages : Int} (hProduct : messages * 110 ∈ Set.Ico (-2 ^ 31) (2 ^ 31))
    {percentage : Nat} (h : percentage ≤ 110) :
    messages * percentage ∈ Set.Ico (-2 ^ 31) (2 ^ 31) := by
  have hPercentage : (percentage : Int) ≤ 110 := Int.ofNat_le.mpr h
  have hNonneg : 0 ≤ (percentage : Int) := Int.natCast_nonneg percentage
  obtain ⟨hLow, hHigh⟩ := hProduct
  rcases le_total 0 messages with hSign | hSign
  · have hUpper := mul_le_mul_of_nonneg_left hPercentage hSign
    have hLower := mul_nonneg hSign hNonneg
    constructor <;> omega
  · have hLower := mul_le_mul_of_nonpos_left hPercentage hSign
    have hUpper := mul_nonpos_of_nonpos_of_nonneg hSign hNonneg
    constructor <;> omega

section Run

variable {file : List (Int × Int)} {total : Nat} (hTen : 10 ≤ total) (hTotal : total < 2 ^ 31)
  (hSchedule : OnSchedule total 10 (threshold broker.messages))
  (hProduct : broker.messages * 110 ∈ Set.Ico (-2 ^ 31) (2 ^ 31))

include hTen hTotal hSchedule hProduct in
/-- A message whose write succeeds is counted, and its line is written on time. -/
theorem persistMessage_onTime {stored : MsgStore} {topic : CString} {st : SaveState σ} {done : Nat}
    {fp : σ} (h : OnTime broker file total done st) (hDone : done < total)
    (hWrite : write (stored.chunk topic) st.file = (0, fp)) :
    ∃ next, persistMessage broker write stored topic st = .ok next ∧ next.file = fp ∧
      OnTime broker file total (done + 1) next := by
  obtain ⟨finished, hFile, hLines, hTracks, hResult⟩ := persistMessage_of_write hWrite
  have hFinished : OnTime broker file total done finished := ⟨hTracks done h.tracks,
    hLines.trans h.lines⟩
  have hMessages : broker.messages ∈ Set.Ico (-2 ^ 31) (2 ^ 31) := by
    simpa using product_mem hProduct (show 1 ≤ 110 by decide)
  have hFew : written (threshold broker.messages) done < 10 := by
    rw [hSchedule done hDone.le]
    exact due_lt (by decide) hTen hDone
  obtain ⟨next, hReport⟩ := report_ne_none hFinished.tracks (Nat.lt_of_le_of_lt hDone hTotal)
    hMessages fun _ => ⟨hFew, product_mem hProduct (by omega)⟩
  obtain ⟨_, hSame, _⟩ := report_step hFinished.tracks hReport
  rw [hReport] at hResult
  exact ⟨next, hResult, hSame.trans hFile, hFinished.report hTen hSchedule hDone hReport⟩

include hTen hTotal hSchedule hProduct in
theorem saveMessages_onTime {store : List MsgStore} {st : SaveState σ} {done : Nat} {fp : σ}
    (h : OnTime broker file total done st) (hSize : done + persistedCount store ≤ total)
    (hWrites : writeAll write store st.file = some fp) :
    ∃ final, saveMessages broker write store st = .ok final ∧
      OnTime broker file total (done + persistedCount store) final := by
  induction store generalizing st done with
  | nil => exact ⟨st, rfl, h⟩
  | cons stored rest ih =>
      cases hTopic : stored.persistedTopic with
      | none =>
          rw [persistedCount_cons_none hTopic] at hSize ⊢
          simp only [writeAll, saveMessages, hTopic] at hWrites ⊢
          exact ih h hSize hWrites
      | some topic =>
          rw [persistedCount_cons_some hTopic] at hSize ⊢
          rcases hWrite : write (stored.chunk topic) st.file with ⟨rc, file'⟩
          simp only [writeAll, saveMessages, hTopic, hWrite] at hWrites ⊢
          split_ifs at hWrites with hFails
          obtain rfl := not_not.mp hFails
          obtain ⟨next, hResult, rfl, hNext⟩ := persistMessage_onTime hTen hTotal hSchedule
            hProduct h (by omega) hWrite
          rw [hResult, Nat.add_comm (persistedCount rest), ← Nat.add_assoc]
          exact ih hNext (by omega) hWrites

end Run

/-- Writes that all succeed succeed on the first messages. -/
theorem writeAll_append {before after : List MsgStore} {file written : σ}
    (h : writeAll write (before ++ after) file = some written) :
    ∃ middle, writeAll write before file = some middle := by
  induction before generalizing file with
  | nil => exact ⟨file, rfl⟩
  | cons stored before ih =>
      cases hTopic : stored.persistedTopic with
      | none =>
          simp only [List.cons_append, writeAll, hTopic] at h ⊢
          exact ih h
      | some topic =>
          rcases hWrite : write (stored.chunk topic) file with ⟨rc, file'⟩
          simp only [List.cons_append, writeAll, hTopic, hWrite] at h ⊢
          split_ifs at h ⊢
          exact ih h

theorem persistedCount_take_le (store : List MsgStore) (n : Nat) :
    persistedCount (store.take n) ≤ persistedCount store :=
  (List.take_sublist n store).countP_le

/-- Some of the first messages are as many persisted ones as one likes. -/
theorem exists_take {store : List MsgStore} {k : Nat} (h : k ≤ persistedCount store) :
    ∃ n, persistedCount (store.take n) = k := by
  induction store generalizing k with
  | nil => exact ⟨0, (Nat.le_zero.mp h).symm⟩
  | cons stored rest ih =>
      cases k with
      | zero => exact ⟨0, rfl⟩
      | succ k =>
          cases hTopic : stored.persistedTopic with
          | none =>
              rw [persistedCount_cons_none hTopic] at h
              obtain ⟨n, hCount⟩ := ih h
              exact ⟨n + 1, by rw [List.take_succ_cons, persistedCount_cons_none hTopic, hCount]⟩
          | some topic =>
              rw [persistedCount_cons_some hTopic] at h
              obtain ⟨n, hCount⟩ := ih (Nat.le_of_succ_le_succ h)
              exact ⟨n + 1, by rw [List.take_succ_cons, persistedCount_cons_some hTopic, hCount]⟩

theorem threshold_ofNat (messages line : Nat) :
    threshold messages line = (messages * (line + 1) / 10 : Nat) := by
  rw [← percentage_eq]
  rfl

theorem threshold_last (messages : Int) : threshold messages 9 = messages :=
  Int.mul_tdiv_cancel messages (by decide)

/-- The lines are on schedule when the thresholds are tenths of the right number,
or when every message has its own line and no threshold comes too late. -/
theorem onSchedule_threshold_iff {messages : Int} {total : Nat} (hTen : 10 ≤ total) :
    OnSchedule total 10 (threshold messages) ↔ messages = total ∨ total = 10 ∧ messages ≤ 10 := by
  constructor
  · intro hSchedule
    have hLast := hSchedule.last (by decide) hTen
    rw [threshold_last] at hLast
    omega
  · rintro (rfl | ⟨rfl, hLow⟩)
    · exact onSchedule_of_exact (by decide) hTen fun line _ => threshold_ofNat total line
    · refine onSchedule_of_low (by decide) fun line _ => ?_
      have hProduct := mul_le_mul_of_nonneg_right hLow
        (Int.natCast_nonneg (10 * (line + 1)))
      calc
        threshold messages line ≤ threshold (10 : Nat) line :=
          Int.tdiv_le_tdiv (show 0 < (100 : Int) by decide) hProduct
        _ = (line + 1 : Nat) := by
          rw [threshold_ofNat, Nat.mul_div_cancel_left _ (show 0 < 10 by decide)]

/-- Lines that are on time show that the thresholds are on schedule, and the last
of them that its product did not overflow. -/
theorem LinesOnTime.schedule {st : SaveState σ} (h : LinesOnTime broker write st)
    (hTen : 10 ≤ persistedCount broker.msgStore) :
    broker.messages * 110 ∈ Set.Ico (-2 ^ 31) (2 ^ 31) ∧
      OnSchedule (persistedCount broker.msgStore) 10 (threshold broker.messages) := by
  obtain ⟨hLines, _⟩ := h
  have hStart := tracks_start broker st
  have hSchedule : OnSchedule (persistedCount broker.msgStore) 10
      (threshold broker.messages) := by
    intro k hk
    obtain ⟨n, rfl⟩ := exists_take hk
    obtain ⟨reached, hReached, hLine⟩ := hLines n
    have hLength := (saveMessages_tracks hStart hReached).2
    rw [hLine, linesDue_eq broker hTen hk, List.length_append, List.length_map,
      List.length_range, Nat.zero_add] at hLength
    exact (Nat.add_left_cancel hLength).symm
  refine ⟨?_, hSchedule⟩
  obtain ⟨reached, hReached, _⟩ := hLines broker.msgStore.length
  rw [List.take_length] at hReached
  have hTracks := (saveMessages_tracks hStart hReached).1
  rw [Nat.zero_add] at hTracks
  have hAll : written (threshold broker.messages) (persistedCount broker.msgStore) = 10 := by
    rw [hSchedule _ le_rfl, due_total (by decide) hTen]
  have hLast := hTracks.product
  rw [hAll] at hLast
  exact hLast (by decide)

theorem linesOnTime_of_schedule {st : SaveState σ} {file : σ}
    (hTen : 10 ≤ persistedCount broker.msgStore)
    (hWrites : writeAll write broker.msgStore st.file = some file)
    (hProduct : broker.messages * 110 ∈ Set.Ico (-2 ^ 31) (2 ^ 31))
    (hSchedule : OnSchedule (persistedCount broker.msgStore) 10 (threshold broker.messages)) :
    LinesOnTime broker write st := by
  have hRange := product_mem hProduct (show 1 ≤ 110 by decide)
  rw [Nat.cast_one, mul_one] at hRange
  have hMessages : toInt (broker.msgStoreCount - 53) = some broker.messages := toInt_of_mem hRange
  have hTotal : persistedCount broker.msgStore < 2 ^ 31 := by
    rcases (onSchedule_threshold_iff hTen).mp hSchedule with hSame | ⟨hSmall, _⟩
    · have hUpper := hRange.2
      omega
    · omega
  have hRun {store : List MsgStore} {written : σ}
      (hSize : persistedCount store ≤ persistedCount broker.msgStore)
      (hStore : writeAll write store st.file = some written) :=
    saveMessages_onTime hTen hTotal hSchedule hProduct (OnTime.start hTen st)
      ((Nat.zero_add _).trans_le hSize) hStore
  constructor
  · intro n
    rw [← List.take_append_drop n broker.msgStore] at hWrites
    obtain ⟨middle, hFirst⟩ := writeAll_append hWrites
    obtain ⟨reached, hReached, hLines⟩ := hRun (persistedCount_take_le broker.msgStore n) hFirst
    rw [Nat.zero_add] at hLines
    exact ⟨reached, hReached, hLines.lines⟩
  · obtain ⟨final, hFinal, hLines⟩ := hRun le_rfl hWrites
    rw [Nat.zero_add] at hLines
    refine ⟨final, ?_, ?_⟩
    · rw [messageStoreSave, hMessages]
      simp only [hFinal, ret]
    · rw [hLines.lines]
      exact congrArg (st.percentages ++ ·) (lines_total hTen (percentageLine broker _))

variable (broker write) in
/-- When all writes succeed, the ten lines are written on time exactly if the
products fit an `int` and the store counts 53 messages more than are persisted, or
ten messages are persisted and it counts at most 63. -/
theorem message_lines_on_time_iff (st : SaveState σ) {file : σ}
    (hTen : 10 ≤ persistedCount broker.msgStore)
    (hWrites : writeAll write broker.msgStore st.file = some file) :
    LinesOnTime broker write st ↔
      broker.messages * 110 ∈ Set.Ico (-2 ^ 31) (2 ^ 31) ∧
        (broker.messages = persistedCount broker.msgStore ∨
          persistedCount broker.msgStore = 10 ∧ broker.messages ≤ 10) := by
  rw [← onSchedule_threshold_iff hTen]
  constructor
  · intro hOnTime
    exact hOnTime.schedule hTen
  · rintro ⟨hProduct, hSchedule⟩
    exact linesOnTime_of_schedule hTen hWrites hProduct hSchedule

/-- The message `i` of a store, with one reference and no client to send it to. -/
def message (topic : CString) (i : Nat) : MsgStore where
  address := 140000000000000 + 128 * (i % 64)
  refCount := 1
  topic := some topic
  destIdCount := 0
  retain := false
  dbId := UInt64.ofNat i
  messageExpiryTime := 0
  payload := 140000000008192 + 16 * (i % 64)
  payloadlen := 4
  sourceMid := 0
  sourceId := none
  sourceUsername := none
  sourceListener := some 1883
  qos := 1
  properties := 0
  inUserSpace := by omega

/-- The topic `"t"`. -/
def letterTopic : CString := [0x74]

/-- The 53 messages under `$SYS` that the constant stands for, and ten more. -/
def tenBroker : Broker :=
  ⟨(List.range 53).map (message sysPrefix) ++ (List.range 10).map (message letterTopic), 63, 12,
    plainPageBits_lt, fun done => 1700000000 + done⟩

/-- Twenty messages, and none under `$SYS`. -/
def twentyBroker : Broker :=
  ⟨(List.range 20).map (message letterTopic), 20, 12, plainPageBits_lt,
    fun done => 1700000000 + done⟩

def appendChunk : WriteChunk (List Chunk) := fun chunk file => (0, file ++ [chunk])

def freshSave : SaveState (List Chunk) := ⟨[], [], [], 0, 0, 0, 10⟩

theorem tenBroker_on_time : LinesOnTime tenBroker appendChunk freshSave := by
  have hWrites : writeAll appendChunk tenBroker.msgStore freshSave.file =
      some ((List.range 10).map fun i => (message letterTopic i).chunk letterTopic) := by
    decide +kernel
  exact (message_lines_on_time_iff tenBroker appendChunk freshSave (by decide +kernel) hWrites).mpr
    ⟨by decide, Or.inl (by decide +kernel)⟩

/-- The thresholds are negative, every message has a line, and the last is of 200
percent. -/
theorem twentyBroker_not_on_time :
    ¬ LinesOnTime twentyBroker appendChunk freshSave ∧
      twentyBroker.msgStoreCount = twentyBroker.msgStore.length ∧
      persistedCount twentyBroker.msgStore = 20 ∧
      (writeAll appendChunk twentyBroker.msgStore freshSave.file).isSome ∧
      (messageStoreSave twentyBroker appendChunk freshSave).2.percentages.map Prod.snd =
        (List.range 20).map fun i => ((10 * (i + 1) : Nat) : Int) := by
  have hLines : (messageStoreSave twentyBroker appendChunk freshSave).2.percentages.map Prod.snd =
      (List.range 20).map fun i => ((10 * (i + 1) : Nat) : Int) := by decide +kernel
  refine ⟨?_, rfl, by decide +kernel, by decide +kernel, hLines⟩
  rintro ⟨_, final, hRun, hFinal⟩
  have hLength := congrArg List.length hLines
  rw [hRun, hFinal] at hLength
  exact absurd hLength (by decide)

end Mosquitto
