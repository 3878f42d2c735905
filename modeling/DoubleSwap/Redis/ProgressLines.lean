import DoubleSwap.Data.Milestones
import DoubleSwap.Redis.SaveRio

/-! When `rdbSaveDb` writes its progress lines. For ten keys or more the line of a
percentage comes right after the key that completes it. -/
namespace Redis

open Milestones (due due_zero due_succ tenths percentage_eq lines_due lines_total)

/-- The line of a percentage, written right after the key that completes it. -/
def percentageLine (server : Server) (dbSize percentage : Nat) : Int × Nat :=
  (server.timeOfDay (dbSize * percentage / 100) - server.timeOfDay 0, percentage)

/-- The lines of the percentages that are complete after `done` keys. -/
def linesDue (server : Server) (dbSize done : Nat) : List (Int × Nat) :=
  (tenths.filter fun percentage => dbSize * percentage / 100 ≤ done).map
    (percentageLine server dbSize)

/-- The dump succeeds, its first `done` keys write the lines that are due after
them, for every `done`, and so in the end there are ten. -/
def LinesOnTime {σ : Type} (server : Server) (rio : Rio σ) (db : RedisDb) (t : Traced σ) : Prop :=
  (∀ res channel, saveHeader server rio db t.dump.channel = (some res, channel) →
    ∀ done ≤ db.size, ∃ reached,
      traceEntries server rio db (db.entries.take done) (t.afterHeader db res channel) =
          some (.ok reached) ∧
        reached.percentages = t.percentages ++ linesDue server db.size done) ∧
  ∃ written final, rdbSaveDb server rio db t = some (some written, final) ∧
    final.percentages = t.percentages ++ tenths.map (percentageLine server db.size)

theorem linesDue_eq {dbSize done : Nat} (hTen : 10 ≤ dbSize) (server : Server)
    (h : done ≤ dbSize) :
    linesDue server dbSize done =
      (List.range (due dbSize 10 done)).map fun j =>
        percentageLine server dbSize (10 * (j + 1)) :=
  lines_due hTen (percentageLine server dbSize) h

/-- The progress variables and the file after `done` keys. -/
structure OnTime {σ : Type} (server : Server) (file : List (Int × Nat)) (dbSize done : Nat)
    (t : Traced σ) : Prop where
  sound : t.progress.Sound dbSize done
  percentage : t.progress.currentPercentage = 10 * (due dbSize 10 done + 1)
  lines : t.percentages = file ++ linesDue server dbSize done

variable {σ : Type} {server : Server} {rio : Rio σ} {db : RedisDb} {file : List (Int × Nat)}

theorem OnTime.start (hTen : 10 ≤ db.size) (t : Traced σ) (res : Nat) (channel : Channel σ) :
    OnTime server t.percentages db.size 0 (t.afterHeader db res channel) where
  sound := Progress.sound_start db.size
  percentage := by
    rw [due_zero (by decide) hTen]
    rfl
  lines := by
    rw [linesDue_eq hTen server (Nat.zero_le _), due_zero (by decide) hTen]
    exact (List.append_nil _).symm

theorem OnTime.report {t next : Traced σ} {dbSize done : Nat} (hTen : 10 ≤ dbSize)
    (h : OnTime server file dbSize done t) (hDone : done < dbSize)
    (hReport : t.report server dbSize = some next) : OnTime server file dbSize (done + 1) next := by
  obtain ⟨hSound, hStep⟩ := report_step h.sound hDone h.percentage hReport
  have hDue := due_succ (show 0 < 10 by decide) hTen done
  have hLines := h.lines
  rw [linesDue_eq hTen server hDone.le] at hLines
  refine ⟨hSound, ?_, ?_⟩
  · split_ifs at hStep hDue with hReached
    · rw [hStep.2, hDue.1]
    · rw [hStep.2, hDue]
  · rw [linesDue_eq hTen server hDone]
    split_ifs at hStep hDue with hReached
    · rw [hStep.1, hLines, hDue.1, List.range_succ, List.map_append, List.map_singleton,
        List.append_assoc, percentageLine, percentage_eq, hDue.2]
    · rw [hStep.1, hLines, hDue]

theorem traceEntries_onTime (hTen : 10 ≤ db.size) {entries : List DictEntry} {t final : Traced σ}
    {done : Nat} (h : OnTime server file db.size done t) (hSize : done + entries.length ≤ db.size)
    (hRun : traceEntries server rio db entries t = some (.ok final)) :
    OnTime server file db.size (done + entries.length) final := by
  induction entries generalizing t done with
  | nil =>
      obtain rfl : t = final := Except.ok.inj (Option.some.inj hRun)
      exact h
  | cons de entries ih =>
      rw [List.length_cons] at hSize ⊢
      cases hSlot : saveSlot server rio db de t.dump with
      | error st => simp [traceEntries, hSlot] at hRun
      | ok st =>
          cases hLen : de.value.sdslen with
          | none => simp [traceEntries, hSlot, hLen] at hRun
          | some len =>
              cases hKey : saveKey server rio de st with
              | error st' => simp [traceEntries, hSlot, hLen, hKey] at hRun
              | ok st' =>
                  obtain ⟨finished, _, hProgress, hFile, hTrace⟩ :=
                    traceEntries_cons entries hSlot hLen hKey
                  rw [hTrace] at hRun
                  obtain ⟨next, hReport, hRest⟩ := Option.bind_eq_some_iff.mp hRun
                  have hFinished : OnTime server file db.size done finished :=
                    ⟨hProgress ▸ h.sound, hProgress ▸ h.percentage, hFile ▸ h.lines⟩
                  have hNext := hFinished.report hTen (by omega) hReport
                  rw [Nat.add_comm entries.length, ← Nat.add_assoc]
                  exact ih hNext (by omega) hRest

/-- A loop that succeeds has succeeded on its first entries. -/
theorem traceEntries_append {before after : List DictEntry} {t final : Traced σ}
    (hRun : traceEntries server rio db (before ++ after) t = some (.ok final)) :
    ∃ middle, traceEntries server rio db before t = some (.ok middle) := by
  induction before generalizing t with
  | nil => exact ⟨t, rfl⟩
  | cons de before ih =>
      rw [List.cons_append] at hRun
      cases hSlot : saveSlot server rio db de t.dump with
      | error st => simp [traceEntries, hSlot] at hRun
      | ok st =>
          cases hLen : de.value.sdslen with
          | none => simp [traceEntries, hSlot, hLen] at hRun
          | some len =>
              cases hKey : saveKey server rio de st with
              | error st' => simp [traceEntries, hSlot, hLen, hKey] at hRun
              | ok st' =>
                  simp only [traceEntries, hSlot, hLen, hKey] at hRun ⊢
                  split at hRun
                  · cases hRun
                  · exact ih hRun

/-- When every write succeeds, every entry is reached and every key is written. -/
theorem reached_of_ok {entries : List DictEntry} {st final : DumpState σ}
    (h : saveEntries server rio db entries st = .ok final) :
    reached server rio db entries st = entries ∧
      savedKeys server rio db entries st = entries.length := by
  induction entries generalizing st with
  | nil => exact ⟨rfl, rfl⟩
  | cons de entries ih =>
      cases hSlot : saveSlot server rio db de st with
      | error st' => simp [saveEntries, hSlot] at h
      | ok st' =>
          cases hKey : saveKey server rio de st' with
          | error st'' => simp [saveEntries, hSlot, hKey] at h
          | ok st'' =>
              simp only [saveEntries, hSlot, hKey] at h
              obtain ⟨hReached, hSaved⟩ := ih h
              simp only [reached, savedKeys, hSlot, hKey, hReached, hSaved, List.length_cons,
                and_self]

theorem traceable_iff {st final : DumpState σ}
    (h : saveEntries server rio db db.entries st = .ok final) :
    Traceable server rio db 0 db.entries st ↔
      (∀ de ∈ db.entries, de.value.IsSds) ∧ db.size < 2 ^ 31 := by
  obtain ⟨hReached, hSaved⟩ := reached_of_ok h
  constructor
  · intro hTraceable
    have hValues := hTraceable.values
    have hKeys := hTraceable.keys
    rw [hReached] at hValues
    rw [hSaved, Nat.zero_add] at hKeys
    exact ⟨hValues, hKeys⟩
  · rintro ⟨hValues, hKeys⟩
    constructor
    · rw [hReached]
      exact hValues
    · rw [hSaved, Nat.zero_add]
      exact hKeys

/-- The lines of a run that is defined and whose writes succeed. -/
theorem linesOnTime_of_run (hTen : 10 ≤ db.size) {t final : Traced σ} {res : Nat}
    {channel : Channel σ} (hHeader : saveHeader server rio db t.dump.channel = (some res, channel))
    (hRun : traceEntries server rio db db.entries (t.afterHeader db res channel) =
      some (.ok final)) : LinesOnTime server rio db t := by
  have hStart : OnTime server t.percentages db.size 0 (t.afterHeader db res channel) :=
    OnTime.start hTen t res channel
  refine ⟨?_, final.dump.written, final, ?_, ?_⟩
  · intro res' channel' hHeader' done hDone
    obtain ⟨hRes, rfl⟩ := Prod.mk.inj (hHeader.symm.trans hHeader')
    obtain rfl := Option.some.inj hRes
    have hSplit : db.entries.take done ++ db.entries.drop done = db.entries :=
      List.take_append_drop done db.entries
    have hLength : (db.entries.take done).length = done := List.length_take_of_le hDone
    rw [← hSplit] at hRun
    obtain ⟨middle, hMiddle⟩ := traceEntries_append hRun
    have hOnTime := traceEntries_onTime hTen hStart (by omega) hMiddle
    rw [hLength, Nat.zero_add] at hOnTime
    exact ⟨middle, hMiddle, hOnTime.lines⟩
  · rw [rdbSaveDb, if_neg (by omega), hHeader]
    simp only [hRun, Option.map_some, retTraced]
  · have hOnTime := traceEntries_onTime hTen hStart (Nat.zero_add _).le hRun
    have hLines := hOnTime.lines
    rw [Nat.zero_add] at hLines
    rw [hLines]
    exact congrArg (t.percentages ++ ·) (lines_total hTen (percentageLine server db.size))

/-- When all writes succeed, the ten lines are written on time exactly if every
value is an SDS string and the keys can be counted in an `int`. -/
theorem lines_on_time_iff (server : Server) (rio : Rio σ) (db : RedisDb) (t : Traced σ)
    (hTen : 10 ≤ db.size) {written : Nat}
    (hWrites : (rdbSaveDbUntraced server rio db t.dump).1 = some written) :
    LinesOnTime server rio db t ↔ (∀ de ∈ db.entries, de.value.IsSds) ∧ db.size < 2 ^ 31 := by
  have hEntered : ¬ db.size = 0 := by omega
  rw [rdbSaveDbUntraced, if_neg hEntered] at hWrites
  cases hHeader : saveHeader server rio db t.dump.channel with
  | mk headerRes channel =>
      rw [hHeader] at hWrites
      cases headerRes with
      | none => cases hWrites
      | some res =>
          cases hSave : saveEntries server rio db db.entries (t.dump.afterHeader res channel) with
          | error failed =>
              simp only [hSave, ret] at hWrites
              cases hWrites
          | ok saved =>
              rw [← traceable_iff hSave]
              have hStart : (t.afterHeader db res channel).progress.Sound db.size 0 :=
                Progress.sound_start db.size
              have hSize : 0 + db.entries.length ≤ db.size := (Nat.zero_add _).le
              constructor
              · rintro ⟨_, result, final, hRun, _⟩
                by_contra hNot
                have hNone := traceEntries_of_not_traceable db.entries _ hStart hSize
                  (Nat.two_pow_pos 31) hNot
                rw [rdbSaveDb, if_neg hEntered, hHeader] at hRun
                simp only [hNone] at hRun
                cases hRun
              · intro hTraceable
                have hErased := traceEntries_of_traceable db.entries _ hStart hSize hTraceable
                obtain ⟨ended, hRun, hEnded⟩ := Option.map_eq_some_iff.mp hErased
                cases ended with
                | error failed =>
                    have hNever : Except.error failed.dump = Except.ok saved := hEnded.trans hSave
                    cases hNever
                | ok final => exact linesOnTime_of_run hTen hHeader hRun

/-- One of twenty strings of one letter. -/
def letter (i : Nat) : Sds where
  address := 140000000000000 + 64 * (i % 20)
  bytes := [UInt8.ofNat (97 + i % 20)]
  inUserSpace := by
    rw [List.length_singleton]
    omega

/-- The keys `a` to `j` with the number 42. -/
def tenCounters : RedisDb :=
  ⟨0, (List.range 10).map fun i => ⟨0, letter i, .string (.int 42), none, 0, 0⟩⟩

/-- The same keys with the strings `k` to `t`. -/
def tenStrings : RedisDb :=
  ⟨0, (List.range 10).map fun i => ⟨0, letter i, .string (.sds (letter (i + 10))), none, 0, 0⟩⟩

theorem tenStrings_on_time : LinesOnTime plainServer openRio tenStrings freshDump := by
  have hWrites : (rdbSaveDbUntraced plainServer openRio tenStrings freshDump.dump).1 =
      some 15 := by decide +kernel
  refine (lines_on_time_iff plainServer openRio tenStrings freshDump (by decide) hWrites).mpr
    ⟨?_, by decide⟩
  intro de hde
  obtain ⟨i, _, rfl⟩ := List.mem_map.mp hde
  exact ⟨letter (i + 10), rfl⟩

/-- The numbers are saved without the additions, and no line is promised with them. -/
theorem tenCounters_not_on_time :
    ¬ LinesOnTime plainServer openRio tenCounters freshDump ∧
      10 ≤ tenCounters.size ∧ 110 * tenCounters.size < 2 ^ 64 ∧
      (rdbSaveDbUntraced plainServer openRio tenCounters freshDump.dump).1 = some 15 ∧
      rdbSaveDb plainServer openRio tenCounters freshDump = none := by
  have hUndefined : rdbSaveDb plainServer openRio tenCounters freshDump = none := by
    decide +kernel
  refine ⟨?_, by decide, by decide, by decide +kernel, hUndefined⟩
  rintro ⟨_, written, final, hRun, _⟩
  rw [hUndefined] at hRun
  cases hRun

end Redis
