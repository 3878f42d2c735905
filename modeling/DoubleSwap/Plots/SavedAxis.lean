import DoubleSwap.Plots.Datetime
import Mathlib.Data.Rat.Cast.Order

/-! `vm_plot.py` saves what it collected, and `plot_file.py` draws the saved
files again. The saved lines carry a clock time; the axes of the figures are
differences between such times. -/
namespace Plots

open Text

/-- The rounding of a quotient to double precision. It keeps the order, and
the integers up to 2 to the power of 53. -/
structure Rounding where
  round : ℚ → ℚ
  monotone : Monotone round
  exact : ∀ n : ℤ, |n| ≤ 2 ^ 53 → round n = n

/-- `(t - start).total_seconds() / 60`. Each of the two divisions rounds. -/
def minutes (r : Rounding) (start t : Datetime) : ℚ :=
  r.round (r.round ((t.since start : ℚ) / 1000000) / 60)

/-- The lists of `vm_plot.py` that its saved files and its figures share. -/
structure Measurements (F : Type) where
  timestamps : List Datetime
  perfTimestamps : List Datetime
  cpuUsageCpu2 : List F
  memoryUsage : List F
  appMemoryUsage : List F
  diskIoRead : List F

/-- The lines of the files that both scripts name. -/
structure SavedFiles where
  cpuUsageCpu2 : List Text
  memoryUsage : List Text
  appMemoryUsage : List Text
  diskIoRead : List Text

/-- What `plot_file.py` reads back. -/
structure Reloaded (F : Type) where
  timestamps : List Datetime
  appTimestamps : List Datetime
  perfTimestamps : List Datetime
  cpuUsageCpu2 : List F
  memoryUsage : List F
  appMemoryUsage : List F
  diskIoRead : List F

/-- The minutes on the time axes of the figures. -/
structure Axes where
  time : List ℚ
  memory : List ℚ
  appMemory : List ℚ
  diskIo : List ℚ
  cpu : List ℚ
  deriving DecidableEq

section Scripts

variable {F : Type} (n : Numbers F) (r : Rounding)

/-- `f"{timestamp.strftime('%H:%M:%S.%f')}: {sample}\n"`. -/
def savedLine (entry : Datetime × F) : Text :=
  entry.1.strftimeHMSf ++ ':' :: ' ' :: (n.str entry.2 ++ ['\n'])

/-- The file of one list of samples. -/
def savedLines (timestamps : List Datetime) (samples : List F) : List Text :=
  (timestamps.zip samples).map (savedLine n)

def saveDataToFiles (m : Measurements F) : SavedFiles where
  cpuUsageCpu2 := savedLines n m.perfTimestamps m.cpuUsageCpu2
  memoryUsage := savedLines n m.timestamps m.memoryUsage
  appMemoryUsage := savedLines n m.timestamps m.appMemoryUsage
  diskIoRead := savedLines n m.timestamps m.diskIoRead

/-- One line of the loops of `load_data_from_files`; `none` is a `ValueError`
of the unpacking, of `strptime` or of `float`. -/
def loadLine (line : Text) : Option (Datetime × F) :=
  match splitPair ':' ' ' (strip line) with
  | [timestampStr, sampleStr] =>
      (strptime timestampStr).bind fun timestamp =>
      (n.float sampleStr).map fun sample => (timestamp, sample)
  | _ => none

def loadLines (lines : List Text) : Option (List (Datetime × F)) := lines.mapM (loadLine n)

/-- The times of the disk file are parsed and dropped. -/
def loadDataFromFiles (files : SavedFiles) : Option (Reloaded F) :=
  (loadLines n files.cpuUsageCpu2).bind fun cpu2 =>
  (loadLines n files.memoryUsage).bind fun memory =>
  (loadLines n files.appMemoryUsage).bind fun appMemory =>
  (loadLines n files.diskIoRead).map fun diskRead =>
    { timestamps := memory.map Prod.fst
      appTimestamps := appMemory.map Prod.fst
      perfTimestamps := cpu2.map Prod.fst
      cpuUsageCpu2 := cpu2.map Prod.snd
      memoryUsage := memory.map Prod.snd
      appMemoryUsage := appMemory.map Prod.snd
      diskIoRead := diskRead.map Prod.snd }

/-- The processor axis counts from the first time of its own list. -/
def truncatedMinutes (perfTimestamps : List Datetime) : List ℚ :=
  match perfTimestamps with
  | [] => []
  | first :: _ => perfTimestamps.map (minutes r first)

/-- The axes of `plot_data` in `vm_plot.py`; `none` is the `IndexError` of
`timestamps[0]`. -/
def vmPlotAxes (m : Measurements F) : Option Axes :=
  m.timestamps.head?.map fun startTime =>
    { time := m.timestamps.map (minutes r startTime)
      memory := (m.timestamps.map (minutes r startTime)).take m.memoryUsage.length
      appMemory := (m.timestamps.map (minutes r startTime)).take m.appMemoryUsage.length
      diskIo := (m.timestamps.take m.diskIoRead.length).map (minutes r startTime)
      cpu := truncatedMinutes r m.perfTimestamps }

/-- The axes of `plot_data` in `plot_file.py`. -/
def plotFileAxes (l : Reloaded F) : Option Axes :=
  l.timestamps.head?.map fun startTime =>
    { time := l.timestamps.map (minutes r startTime)
      memory := (l.timestamps.take l.memoryUsage.length).map (minutes r startTime)
      appMemory := (l.appTimestamps.take l.appMemoryUsage.length).map (minutes r startTime)
      diskIo := (l.timestamps.take l.diskIoRead.length).map (minutes r startTime)
      cpu := truncatedMinutes r l.perfTimestamps }

/-- Save, load, and draw the axes. -/
def reloadedAxes (m : Measurements F) : Option Axes :=
  (loadDataFromFiles n (saveDataToFiles n m)).bind (plotFileAxes r)

end Scripts

/-- Times that a collector of `vm_plot.py` appends: never decreasing, and at
most the 7200 s of a collection apart. -/
structure CollectedTimes (times : List Datetime) : Prop where
  nondecreasing : times.Pairwise fun s t => s.instant ≤ t.instant
  span : ∀ s ∈ times, ∀ t ∈ times, t.instant ≤ s.instant + 7200 * 1000000

/-- Two lists of times, and as many samples as times in every list. -/
structure Collected {F : Type} (m : Measurements F) : Prop where
  times : CollectedTimes m.timestamps
  perfTimes : CollectedTimes m.perfTimestamps
  cpuUsageCpu2 : m.cpuUsageCpu2.length = m.perfTimestamps.length
  memoryUsage : m.memoryUsage.length = m.timestamps.length
  appMemoryUsage : m.appMemoryUsage.length = m.timestamps.length
  diskIoRead : m.diskIoRead.length = m.timestamps.length

/-- No midnight lies between two of the times. -/
def SameDay (times : List Datetime) : Prop := ∀ s ∈ times, ∀ t ∈ times, t.ordinal = s.ordinal

instance (times : List Datetime) : Decidable (SameDay times) :=
  inferInstanceAs (Decidable (∀ s ∈ times, ∀ t ∈ times, t.ordinal = s.ordinal))

section Lines

variable {F : Type} (n : Numbers F)

theorem not_isSpace_of_mem_strftimeHMSf (t : Datetime) :
    ∀ c ∈ t.strftimeHMSf, isSpace c = false := by
  have hNumeral (width k : Nat) : ∀ c ∈ padded width k, isSpace c = false :=
    (isNumeral_padded width k).isWord.2
  intro c hc
  simp only [Datetime.strftimeHMSf, List.mem_append, List.mem_cons] at hc
  rcases hc with hc | rfl | hc | rfl | hc | rfl | hc
  · exact hNumeral _ _ c hc
  · decide
  · exact hNumeral _ _ c hc
  · decide
  · exact hNumeral _ _ c hc
  · decide
  · exact hNumeral _ _ c hc

/-- The line break goes, and the blank after the colon separates two fields. -/
theorem splitPair_savedLine (entry : Datetime × F) :
    splitPair ':' ' ' (strip (savedLine n entry)) = [entry.1.strftimeHMSf, n.str entry.2] := by
  obtain ⟨hNonempty, hWord⟩ := n.isWord_str entry.2
  have hStamp := not_isSpace_of_mem_strftimeHMSf entry.1
  have hBlank : isSpace ' ' = true := by decide
  have hStrip : strip (savedLine n entry) =
      entry.1.strftimeHMSf ++ ':' :: ' ' :: n.str entry.2 := by
    have hLine : savedLine n entry =
        (entry.1.strftimeHMSf ++ ':' :: ' ' :: n.str entry.2) ++ ['\n'] := by
      simp [savedLine]
    rw [hLine]
    apply strip_append_spaces
    · intro c hc
      cases hText : entry.1.strftimeHMSf with
      | nil =>
          rw [hText] at hc
          cases hc
          decide
      | cons d rest =>
          rw [hText] at hc
          cases hc
          exact hStamp c (hText ▸ List.mem_cons_self)
    · intro c hc
      have hLast : (entry.1.strftimeHMSf ++ ':' :: ' ' :: n.str entry.2).getLast? =
          (n.str entry.2).getLast? := by
        rw [show entry.1.strftimeHMSf ++ ':' :: ' ' :: n.str entry.2 =
          (entry.1.strftimeHMSf ++ [':', ' ']) ++ n.str entry.2 by simp]
        exact List.getLast?_append_of_ne_nil _ hNonempty
      rw [hLast] at hc
      exact hWord c (List.mem_of_getLast? hc)
    · intro c hc
      rw [List.mem_singleton.mp hc]
      decide
  have hNoBlank {s : Text} (h : ∀ c ∈ s, isSpace c = false) : ' ' ∉ s := by
    intro hMem
    rw [h ' ' hMem] at hBlank
    cases hBlank
  rw [hStrip, splitPair_append (by decide) (hNoBlank hStamp),
    splitPair_eq_singleton (hNoBlank hWord)]

/-- A saved line is read back with its clock time, and with some number. -/
theorem loadLine_savedLine (entry : Datetime × F) :
    ∃ sample, loadLine n (savedLine n entry) = some (entry.1.clock, sample) := by
  obtain ⟨sample, hSample⟩ := Option.isSome_iff_exists.mp (n.float_str entry.2)
  refine ⟨sample, ?_⟩
  rw [loadLine, splitPair_savedLine]
  simp only [strptime_strftimeHMSf, hSample, Option.bind_some, Option.map_some]

theorem loadLines_savedLines {timestamps : List Datetime} {samples : List F}
    (h : samples.length = timestamps.length) :
    ∃ entries, loadLines n (savedLines n timestamps samples) = some entries ∧
      entries.map Prod.fst = timestamps.map Datetime.clock := by
  induction timestamps generalizing samples with
  | nil => exact ⟨[], rfl, rfl⟩
  | cons t timestamps ih =>
      cases samples with
      | nil => cases h
      | cons x samples =>
          obtain ⟨entries, hEntries, hTimes⟩ := ih (Nat.succ.inj h)
          obtain ⟨sample, hSample⟩ := loadLine_savedLine n (t, x)
          refine ⟨(t.clock, sample) :: entries, ?_, by rw [List.map_cons, List.map_cons, hTimes]⟩
          rw [loadLines] at hEntries ⊢
          rw [savedLines, List.zip_cons_cons, List.map_cons, List.mapM_cons, hSample]
          rw [savedLines] at hEntries
          simp only [hEntries, bind, Option.bind, pure]

end Lines

section Axis

variable (r : Rounding)

theorem minutes_nonneg {start t : Datetime} (h : 0 ≤ t.since start) : 0 ≤ minutes r start t := by
  have hZero : r.round 0 = 0 := by simpa using r.exact 0 (by norm_num)
  have hStep {q : ℚ} (hq : 0 ≤ q) : 0 ≤ r.round q := hZero ▸ r.monotone hq
  have hSince : (0 : ℚ) ≤ t.since start := by exact_mod_cast h
  exact hStep (div_nonneg (hStep (div_nonneg hSince (by norm_num))) (by norm_num))

/-- A minute too early is not rounded away. -/
theorem minutes_neg {start t : Datetime} (h : t.since start ≤ -60000000) :
    minutes r start t < 0 := by
  have hOne : r.round (-1) = -1 := by simpa using r.exact (-1) (by norm_num)
  have hSixty : r.round (-60) = -60 := by simpa using r.exact (-60) (by norm_num)
  have hSince : (t.since start : ℚ) ≤ -60000000 := by exact_mod_cast h
  have hSeconds : r.round ((t.since start : ℚ) / 1000000) ≤ -60 := by
    rw [← hSixty]
    exact r.monotone (by linarith)
  have hMinutes : minutes r start t ≤ -1 := by
    rw [← hOne]
    exact r.monotone (by linarith)
  linarith

/-- Clock times give the true minutes exactly when no midnight lies between. -/
theorem minutes_clock_iff {start t : Datetime} (hAfter : start.instant ≤ t.instant)
    (hSpan : t.instant ≤ start.instant + 7200 * 1000000) :
    minutes r start.clock t.clock = minutes r start t ↔ t.ordinal = start.ordinal := by
  have hClock := Datetime.since_clock t start
  constructor
  · intro hSame
    by_contra hDay
    have hTime := t.timeOfDay_lt
    have hStart := start.timeOfDay_lt
    have hNext : start.ordinal + 1 ≤ t.ordinal := by
      simp only [Datetime.instant] at hAfter
      omega
    have hTrue : 0 ≤ t.since start := by
      simp only [Datetime.since]
      omega
    have hEarly : t.clock.since start.clock ≤ -60000000 := by
      rw [hClock]
      simp only [Datetime.since]
      omega
    have hSign := minutes_neg r hEarly
    rw [hSame] at hSign
    exact absurd (minutes_nonneg r hTrue) (not_le.mpr hSign)
  · intro hDay
    rw [hDay, sub_self, zero_mul, sub_zero] at hClock
    rw [minutes, minutes, hClock]

theorem sameDay_cons_iff {start : Datetime} {rest : List Datetime} :
    SameDay (start :: rest) ↔ ∀ t ∈ start :: rest, t.ordinal = start.ordinal := by
  constructor
  · intro h t ht
    exact h start List.mem_cons_self t ht
  · intro h s hs t ht
    rw [h s hs, h t ht]

/-- The axis of a collection that is not empty, from its clock times. -/
theorem map_minutes_clock_iff {start : Datetime} {rest : List Datetime}
    (h : CollectedTimes (start :: rest)) :
    ((start :: rest).map Datetime.clock).map (minutes r start.clock) =
        (start :: rest).map (minutes r start) ↔ SameDay (start :: rest) := by
  have hAfter : ∀ t ∈ start :: rest, start.instant ≤ t.instant := by
    intro t ht
    rcases List.mem_cons.mp ht with rfl | ht
    · exact Nat.le_refl _
    · exact List.rel_of_pairwise_cons h.nondecreasing ht
  rw [List.map_map, List.map_inj_left, sameDay_cons_iff]
  exact forall₂_congr fun t ht =>
    minutes_clock_iff r (hAfter t ht) (h.span start List.mem_cons_self t ht)

theorem truncatedMinutes_clock_iff {times : List Datetime} (h : CollectedTimes times) :
    truncatedMinutes r (times.map Datetime.clock) = truncatedMinutes r times ↔ SameDay times := by
  cases times with
  | nil => simp [truncatedMinutes, SameDay]
  | cons start rest => exact map_minutes_clock_iff r h

end Axis

section Reload

variable {F : Type} (n : Numbers F) (r : Rounding)

/-- Axes that agree but for the processor axis. -/
def axesOf (time cpu : List ℚ) : Axes := ⟨time, time, time, time, cpu⟩

theorem vmPlotAxes_eq {m : Measurements F} (h : Collected m) :
    vmPlotAxes r m = m.timestamps.head?.map fun startTime =>
      axesOf (m.timestamps.map (minutes r startTime)) (truncatedMinutes r m.perfTimestamps) := by
  have hAll (times : List Datetime) (f : Datetime → ℚ) :
      (times.map f).take times.length = times.map f := by
    rw [← List.map_take, List.take_length]
  rw [vmPlotAxes, h.memoryUsage, h.appMemoryUsage, h.diskIoRead]
  simp only [hAll, List.take_length, axesOf]

/-- The files load, and every axis is drawn from the clock times. -/
theorem reloadedAxes_eq {m : Measurements F} (h : Collected m) :
    reloadedAxes n r m = m.timestamps.head?.map fun startTime =>
      axesOf ((m.timestamps.map Datetime.clock).map (minutes r startTime.clock))
        (truncatedMinutes r (m.perfTimestamps.map Datetime.clock)) := by
  obtain ⟨cpu2, hCpu2, hCpu2Times⟩ := loadLines_savedLines n h.cpuUsageCpu2
  obtain ⟨memory, hMemory, hMemoryTimes⟩ := loadLines_savedLines n h.memoryUsage
  obtain ⟨app, hApp, hAppTimes⟩ := loadLines_savedLines n h.appMemoryUsage
  obtain ⟨disk, hDisk, hDiskTimes⟩ := loadLines_savedLines n h.diskIoRead
  have hLength {entries : List (Datetime × F)}
      (hTimes : entries.map Prod.fst = m.timestamps.map Datetime.clock) :
      (entries.map Prod.snd).length = (m.timestamps.map Datetime.clock).length := by
    rw [← hTimes, List.length_map, List.length_map]
  rw [reloadedAxes, loadDataFromFiles, saveDataToFiles]
  simp only [hCpu2, hMemory, hApp, hDisk, Option.bind_some, Option.map_some, plotFileAxes,
    hCpu2Times, hMemoryTimes, hAppTimes, hLength hMemoryTimes, hLength hAppTimes,
    hLength hDiskTimes, List.take_length, axesOf, List.head?_map, Option.map_map]
  rfl

/-- The reloaded axes are those of the run exactly when there are no times, or
all times of each list are of one day. -/
theorem reloadedAxes_iff {m : Measurements F} (h : Collected m) :
    reloadedAxes n r m = vmPlotAxes r m ↔
      (m.timestamps ≠ [] → SameDay m.timestamps ∧ SameDay m.perfTimestamps) := by
  rw [reloadedAxes_eq n r h, vmPlotAxes_eq r h]
  have hTimes := h.times
  cases hList : m.timestamps with
  | nil => simp
  | cons start rest =>
      rw [hList] at hTimes
      rw [← map_minutes_clock_iff r hTimes, ← truncatedMinutes_clock_iff r h.perfTimes]
      simp [axesOf]

end Reload

/-- Division without rounding. -/
def exactRounding : Rounding := ⟨id, monotone_id, fun _ _ => rfl⟩

/-- A collection of two samples in every list. -/
def minuteRun (first second : Datetime) : Measurements ℤ where
  timestamps := [first, second]
  perfTimestamps := [first, second]
  cpuUsageCpu2 := [50, 60]
  memoryUsage := [100, 200]
  appMemoryUsage := [10, 20]
  diskIoRead := [1, 2]

theorem collected_minuteRun {first second : Datetime} (hAfter : first.instant ≤ second.instant)
    (hSpan : second.instant ≤ first.instant + 7200 * 1000000) :
    Collected (minuteRun first second) := by
  have hTimes : CollectedTimes [first, second] := by
    constructor
    · simpa using hAfter
    · intro s hs t ht
      simp only [List.mem_cons, List.not_mem_nil, or_false] at hs ht
      rcases hs with rfl | rfl <;> rcases ht with rfl | rfl <;> omega
  exact ⟨hTimes, hTimes, rfl, rfl, rfl, rfl⟩

def morning : Datetime := .ofSeconds 739202 36000

def minuteLater : Datetime := .ofSeconds 739202 36060

theorem minuteRun_reloaded :
    reloadedAxes wholeFloats exactRounding (minuteRun morning minuteLater) =
      vmPlotAxes exactRounding (minuteRun morning minuteLater) := by
  have hCollected : Collected (minuteRun morning minuteLater) :=
    collected_minuteRun (by decide) (by decide)
  apply (reloadedAxes_iff wholeFloats exactRounding hCollected).mpr
  intro _
  have hDay : SameDay [morning, minuteLater] := by decide
  exact ⟨hDay, hDay⟩

def beforeMidnight : Datetime := .ofSeconds 739202 86370

def afterMidnight : Datetime := .ofSeconds 739203 30

/-- Across midnight, the second sample is reloaded almost a day before the first. -/
theorem midnightRun_shifted :
    Collected (minuteRun beforeMidnight afterMidnight) ∧
      vmPlotAxes exactRounding (minuteRun beforeMidnight afterMidnight) =
        some (axesOf [0, 1] [0, 1]) ∧
      reloadedAxes wholeFloats exactRounding (minuteRun beforeMidnight afterMidnight) =
        some (axesOf [0, -1439] [0, -1439]) ∧
      reloadedAxes wholeFloats exactRounding (minuteRun beforeMidnight afterMidnight) ≠
        vmPlotAxes exactRounding (minuteRun beforeMidnight afterMidnight) := by
  refine ⟨collected_minuteRun (by decide) (by decide), ?_, ?_, ?_⟩
  · decide +kernel
  · decide +kernel
  · decide +kernel

end Plots
