import DoubleSwap.Loggers.RecordRoundTrip

/-! The start times in the host records. They are rendered into a buffer of the
size of a process name, so the longest ones lose their last digits. -/
namespace Host

open Text Loggers Analyser

def taskCommLen : Nat := 16

/-- What is read of a `task_struct`. -/
structure Task where
  mm : Option Nat
  comm : Text
  /-- Nanoseconds since boot. -/
  startTime : Nat
  deriving DecidableEq, Repr

/-- `get_process_name_using_vma`, and `get_process_name_using_vma_1` alike: the
name and the start time, or `none` for -1. The second argument is the `vm_mm` of
the area, if there is an area. -/
def getProcessNameUsingVma (tasks : List Task) (vma : Option (Option Nat)) (size timeSize : Nat) :
    Option (Text × Text) :=
  match vma with
  | some (some mm) =>
      (tasks.find? fun task => task.mm = some mm).map fun task =>
        (task.comm.take size, snprintf timeSize (decimal task.startTime))
  | _ => none

/-- The start time as the callers receive it. -/
def startTimeToken (startTime : Nat) : Text := snprintf taskCommLen (decimal startTime)

theorem getProcessNameUsingVma_of_find {tasks : List Task} {mm : Nat} {task : Task}
    (h : tasks.find? (fun task => task.mm = some mm) = some task) :
    getProcessNameUsingVma tasks (some (some mm)) taskCommLen taskCommLen =
      some (task.comm.take taskCommLen, startTimeToken task.startTime) := by
  simp only [getProcessNameUsingVma, h, Option.map_some, startTimeToken]

/-- The fifteen leading digits of a number, or all of them when it has fewer. -/
def leadingDigits (n : Nat) : Nat := n / 10 ^ ((decimal n).length - 15)

/-- The token is cut off to what fits into the buffer. -/
theorem startTimeToken_eq (startTime : Nat) :
    startTimeToken startTime = decimal (leadingDigits startTime) :=
  take_decimal (show 0 < taskCommLen - 1 by decide) startTime

/-- It is a number all the same. -/
theorem int_startTimeToken (startTime : Nat) :
    int (startTimeToken startTime) = .ok (leadingDigits startTime : Int) := by
  rw [startTimeToken_eq, Analyser.int, parseInt_decimal]

/-- A system that has been up for less than eleven days loses no digits. -/
theorem leadingDigits_of_lt {n : Nat} (h : n < 10 ^ 15) : leadingDigits n = n := by
  have hLength : (decimal n).length ≤ 15 :=
    (Nat.length_toDigits_le_iff (by decide) (by decide)).mpr h
  rw [leadingDigits, Nat.sub_eq_zero_of_le hLength, Nat.pow_zero, Nat.div_one]

/-- A swap of a page of a qemu process. -/
structure QemuSwap where
  event : HostEvent
  pageAddr : Nat
  pageAddr_lt : pageAddr < 2 ^ 64
  startTime : Nat
  ts : Timespec

namespace QemuSwap

def work (swap : QemuSwap) : LogWork :=
  swap.event.work swap.pageAddr qemuName (startTimeToken swap.startTime)

def line (swap : QemuSwap) : Text := swap.work.line swap.ts

/-- The record that `parse_line` makes of it. -/
def record (swap : QemuSwap) : HostRecord :=
  ⟨swap.pageAddr, swap.work.tag, stamp swap.ts, qemuName, leadingDigits swap.startTime⟩

/-- A line of QEMU is read as its fields. -/
theorem parseLine_line (swap : QemuSwap) : parseLine swap.line = .ok (some swap.record) := by
  have hToken : IsNumeral (startTimeToken swap.startTime) := by
    rw [startTimeToken_eq]
    exact isNumeral_decimal _
  have hLength : (startTimeToken swap.startTime).length ≤ 15 := List.length_take_le _ _
  have hValue : Nat.ofDigitChars 10 (startTimeToken swap.startTime) 0 =
      leadingDigits swap.startTime := by
    rw [startTimeToken_eq, decimal, Nat.ofDigitChars_ten_toDigits]
  have hParsed := (parseLine_work swap.event swap.pageAddr_lt swap.ts isWord_qemuName (by decide)
    hToken hLength).2.2
  rw [hValue] at hParsed
  exact hParsed

end QemuSwap

/-- A line of a host log. -/
inductive HostLogLine where
  | qemu (swap : QemuSwap)
  /-- A line of another process, or one that has no record. -/
  | other (line : Text)
      (parses : ∃ record, parseLine line = .ok record ∧
        ∀ r, record = some r → r.processName ≠ qemuName)

def HostLogLine.text : HostLogLine → Text
  | .qemu swap => swap.line
  | .other line _ => line

def HostLogLine.swap : HostLogLine → Option QemuSwap
  | .qemu swap => some swap
  | .other _ _ => none

/-- The swaps of qemu processes in a log. -/
def qemuSwaps (log : List HostLogLine) : List QemuSwap := log.filterMap HostLogLine.swap

/-- The swaps of the process that was started first. -/
def Earliest (swaps : List QemuSwap) (swap : QemuSwap) : Prop :=
  ∀ other ∈ swaps, swap.startTime ≤ other.startTime

theorem qemuStartTimes_cons_qemu {line : Text} {r : HostRecord} (hRecord : recordOf line = some r)
    (hName : r.processName = qemuName) (lines : List Text) :
    qemuStartTimes (line :: lines) = r.startTime :: qemuStartTimes lines := by
  simp [qemuStartTimes, hRecord, hName]

theorem qemuStartTimes_cons_other {line : Text} (h : ∀ r, recordOf line = some r →
    r.processName ≠ qemuName) (lines : List Text) :
    qemuStartTimes (line :: lines) = qemuStartTimes lines := by
  cases hRecord : recordOf line with
  | none => simp [qemuStartTimes, hRecord]
  | some r => simp [qemuStartTimes, hRecord, h r hRecord]

/-- The start times that are compared are the leading digits of the real ones. -/
theorem qemuStartTimes_text (log : List HostLogLine) :
    qemuStartTimes (log.map HostLogLine.text) =
      (qemuSwaps log).map fun swap => (leadingDigits swap.startTime : Int) := by
  induction log with
  | nil => rfl
  | cons line log ih =>
      rw [List.map_cons]
      cases line with
      | qemu swap =>
          have hRecord : recordOf swap.line = some swap.record := by
            rw [recordOf, swap.parseLine_line]
            rfl
          rw [HostLogLine.text, qemuStartTimes_cons_qemu hRecord rfl, ih]
          rfl
      | other line parses =>
          rw [HostLogLine.text, qemuStartTimes_cons_other, ih]
          · rfl
          · intro r hr
            obtain ⟨record, hParse, hOther⟩ := parses
            rw [recordOf, hParse] at hr
            exact hOther r (Option.join_eq_some_iff.mp hr |> Option.some.inj)

/-- The selection compares what is left of the start times. -/
theorem filterQemuProcess_log {log : List HostLogLine} {selected : Int} :
    filterQemuProcess (log.map HostLogLine.text) = .ok (some selected) ↔
      (∃ swap ∈ qemuSwaps log, (leadingDigits swap.startTime : Int) = selected) ∧
        ∀ swap ∈ qemuSwaps log, selected ≤ (leadingDigits swap.startTime : Int) := by
  have hParses : ∀ line ∈ log.map HostLogLine.text, ∃ value, parseLine line = .ok value := by
    intro text hText
    obtain ⟨line, _, rfl⟩ := List.mem_map.mp hText
    cases line with
    | qemu swap => exact ⟨_, swap.parseLine_line⟩
    | other line parses =>
        obtain ⟨record, hParse, _⟩ := parses
        exact ⟨record, hParse⟩
  obtain ⟨parsed, hParsed⟩ := Fallible.mapM_isOk_iff.mpr hParses
  rw [filterQemuProcess_eq, hParsed]
  show Except.ok (earliest _) = Except.ok (some selected) ↔ _
  rw [Except.ok.injEq, earliest, qemuStartTimes_text, List.min?_eq_some_iff, List.mem_map,
    List.forall_mem_map]

/-- One swap of QEMU is the first. -/
theorem exists_least (key : QemuSwap → Nat) {swaps : List QemuSwap} {swap : QemuSwap}
    (hSwap : swap ∈ swaps) : ∃ first ∈ swaps, ∀ other ∈ swaps, key first ≤ key other :=
  Set.exists_min_image { swap | swap ∈ swaps } key (List.finite_toSet swaps) ⟨swap, hSwap⟩

/-- The selected start time is that of the first process, and of no other, exactly
when no other start time has lost what tells it from the first. -/
theorem selects_earliest_iff (log : List HostLogLine) :
    (∀ selected, filterQemuProcess (log.map HostLogLine.text) = .ok (some selected) →
      ∀ swap ∈ qemuSwaps log,
        int (startTimeToken swap.startTime) = .ok selected ↔ Earliest (qemuSwaps log) swap) ↔
    ∀ first ∈ qemuSwaps log, Earliest (qemuSwaps log) first →
      ∀ later ∈ qemuSwaps log, first.startTime < later.startTime →
        leadingDigits first.startTime < leadingDigits later.startTime := by
  simp only [filterQemuProcess_log, int_startTimeToken, Except.ok.injEq]
  constructor
  · intro hSelects first hFirst hEarliest later hLater hOrder
    obtain ⟨least, hLeast, hMin⟩ := exists_least (fun swap => leadingDigits swap.startTime) hFirst
    have hSelected := hSelects (leadingDigits least.startTime) ⟨⟨least, hLeast, rfl⟩,
      fun swap hSwap => Int.ofNat_le.mpr (hMin swap hSwap)⟩
    have hSame := (hSelected first hFirst).mpr hEarliest
    have hOther : (leadingDigits later.startTime : Int) ≠ leadingDigits least.startTime :=
      fun hEq => absurd ((hSelected later hLater).mp hEq first hFirst) (not_le.mpr hOrder)
    have hBelow := hMin later hLater
    omega
  · rintro hDistinct selected ⟨⟨least, hLeast, rfl⟩, hMin⟩ swap hSwap
    obtain ⟨first, hFirst, hEarliest⟩ := exists_least QemuSwap.startTime hLeast
    have hAfter (later : QemuSwap) (hLater : later ∈ qemuSwaps log)
        (hOrder : first.startTime < later.startTime) :
        (leadingDigits least.startTime : Int) < leadingDigits later.startTime :=
      (hMin first hFirst).trans_lt
        (Int.ofNat_lt.mpr (hDistinct first hFirst hEarliest later hLater hOrder))
    have hLeastTime : least.startTime = first.startTime := by
      by_contra hLater
      have hOrder := hEarliest least hLeast
      exact lt_irrefl _ (hAfter least hLeast (by omega))
    constructor
    · intro hSame other hOther
      by_contra hLater
      have hOrder := hEarliest other hOther
      have hBelow := hAfter swap hSwap (by omega)
      omega
    · intro hFirstToo
      have hTime : swap.startTime = least.startTime := by
        have hLow := hFirstToo first hFirst
        have hHigh := hEarliest swap hSwap
        omega
      rw [hTime]

/-- Two start times are read back in their order exactly when their leading digits
are in that order, as they are in the first eleven days, and the selection among
the processes of a log depends on just that. -/
theorem start_times_ordered_iff {tasks : List Task} {mm mm' : Nat} {first second : Task}
    (hFirst : tasks.find? (fun task => task.mm = some mm) = some first)
    (hSecond : tasks.find? (fun task => task.mm = some mm') = some second)
    (log : List HostLogLine) :
    ((∃ name time name' time' x y,
        getProcessNameUsingVma tasks (some (some mm)) taskCommLen taskCommLen = some (name, time) ∧
        getProcessNameUsingVma tasks (some (some mm')) taskCommLen taskCommLen =
          some (name', time') ∧
        int time = .ok x ∧ int time' = .ok y ∧ x < y) ↔
      leadingDigits first.startTime < leadingDigits second.startTime) ∧
    (first.startTime < second.startTime → second.startTime < 10 ^ 15 →
      leadingDigits first.startTime < leadingDigits second.startTime) ∧
    ((∀ selected, filterQemuProcess (log.map HostLogLine.text) = .ok (some selected) →
        ∀ swap ∈ qemuSwaps log,
          int (startTimeToken swap.startTime) = .ok selected ↔ Earliest (qemuSwaps log) swap) ↔
      ∀ earliest ∈ qemuSwaps log, Earliest (qemuSwaps log) earliest →
        ∀ later ∈ qemuSwaps log, earliest.startTime < later.startTime →
          leadingDigits earliest.startTime < leadingDigits later.startTime) := by
  refine ⟨?_, ?_, selects_earliest_iff log⟩
  · rw [getProcessNameUsingVma_of_find hFirst, getProcessNameUsingVma_of_find hSecond]
    constructor
    · rintro ⟨name, time, name', time', x, y, hTask, hTask', hX, hY, hOrder⟩
      obtain ⟨rfl, rfl⟩ := Prod.mk.inj (Option.some.inj hTask)
      obtain ⟨rfl, rfl⟩ := Prod.mk.inj (Option.some.inj hTask')
      rw [int_startTimeToken] at hX hY
      obtain rfl := Except.ok.inj hX
      obtain rfl := Except.ok.inj hY
      exact Int.ofNat_lt.mp hOrder
    · intro hOrder
      exact ⟨_, _, _, _, _, _, rfl, rfl, int_startTimeToken _, int_startTimeToken _,
        Int.ofNat_lt.mpr hOrder⟩
  · intro hOlder hUptime
    rw [leadingDigits_of_lt hUptime, leadingDigits_of_lt (hOlder.trans hUptime)]
    exact hOlder

def olderTask : Task := ⟨some 1, qemuName, 999999999999999⟩

def youngerTask : Task := ⟨some 2, qemuName, 1000000000000000⟩

/-- A swap-out of the first page of a process. -/
def firstSwap (task : Task) : QemuSwap :=
  ⟨.swapOut, 0, Nat.two_pow_pos 64, task.startTime, firstInstant⟩

/-- One process was started in the last nanosecond that is kept whole, the other
right after it, and the second one is read as if it had been started long before. -/
theorem youngerTask_selected :
    ¬ (∃ name time name' time' x y,
        getProcessNameUsingVma [olderTask, youngerTask] (some (some 1)) taskCommLen taskCommLen =
          some (name, time) ∧
        getProcessNameUsingVma [olderTask, youngerTask] (some (some 2)) taskCommLen taskCommLen =
          some (name', time') ∧
        int time = .ok x ∧ int time' = .ok y ∧ x < y) ∧
      olderTask.startTime < youngerTask.startTime ∧
      filterQemuProcess ([.qemu (firstSwap olderTask), .qemu (firstSwap youngerTask)].map
        HostLogLine.text) = .ok (some 100000000000000) ∧
      int (startTimeToken youngerTask.startTime) = .ok 100000000000000 := by
  refine ⟨?_, by decide, by decide +kernel, by decide +kernel⟩
  rintro ⟨name, time, name', time', x, y, hTask, hTask', hX, hY, hOrder⟩
  obtain rfl : "999999999999999".toList = time := (Prod.mk.inj (Option.some.inj hTask)).2
  obtain rfl : "100000000000000".toList = time' := (Prod.mk.inj (Option.some.inj hTask')).2
  obtain rfl : 999999999999999 = x := Except.ok.inj hX
  obtain rfl : 100000000000000 = y := Except.ok.inj hY
  exact absurd hOrder (by decide)

/-- The process of the first days. -/
def earlyTask : Task := ⟨some 3, qemuName, 5000000000⟩

theorem earlyTask_ordered :
    (∃ name time name' time' x y,
        getProcessNameUsingVma [earlyTask, olderTask] (some (some 3)) taskCommLen taskCommLen =
          some (name, time) ∧
        getProcessNameUsingVma [earlyTask, olderTask] (some (some 1)) taskCommLen taskCommLen =
          some (name', time') ∧
        int time = .ok x ∧ int time' = .ok y ∧ x < y) ∧
      ∀ selected, filterQemuProcess ([.qemu (firstSwap olderTask), .qemu (firstSwap earlyTask)].map
          HostLogLine.text) = .ok (some selected) →
        ∀ swap ∈ [firstSwap olderTask, firstSwap earlyTask],
          int (startTimeToken swap.startTime) = .ok selected ↔
            Earliest [firstSwap olderTask, firstSwap earlyTask] swap := by
  have hOrdered := start_times_ordered_iff (show [earlyTask, olderTask].find?
      (fun task => task.mm = some 3) = some earlyTask from rfl)
    (show [earlyTask, olderTask].find? (fun task => task.mm = some 1) = some olderTask from rfl)
    [.qemu (firstSwap olderTask), .qemu (firstSwap earlyTask)]
  have hDigits := hOrdered.2.1 (by decide) (by decide)
  refine ⟨hOrdered.1.mpr hDigits, hOrdered.2.2.mpr ?_⟩
  intro earliest _ _ later hLater hOrder
  have hSecond : later.startTime < 10 ^ 15 := by
    rcases List.mem_cons.mp hLater with rfl | hLater
    · decide
    · rw [List.mem_singleton.mp hLater]
      decide
  rw [leadingDigits_of_lt hSecond, leadingDigits_of_lt (hOrder.trans hSecond)]
  exact hOrder

end Host
