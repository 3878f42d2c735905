import DoubleSwap.Data.GroupDict
import DoubleSwap.Data.ParallelLists
import DoubleSwap.Plots.Datetime

/-! The collectors of `redis_plot.py`. A thread for the server and a thread for
its children call perf turn after turn. Both keep the time stamps and the
samples in two lists, which are joined by position when they are saved. -/
namespace Plots.RedisPlot

open Text

/-- What a turn finds: no process any more, a perf command that fails, or the
lines that perf has written. -/
inductive PerfRun where
  | processGone
  | commandFailed
  | output (lines : List Text)
  deriving DecidableEq, Repr

/-- What becomes of a turn. Without the token `CPUs`, `parts.index` raises a
`ValueError` that only ends the thread. -/
inductive Outcome (F : Type) where
  | processGone
  | commandFailed
  | noLine
  | noToken
  | notNumber
  | sample (percent : F)

/-- The sample that the turn records. -/
def Outcome.sample? {F : Type} : Outcome F → Option F
  | .sample percent => some percent
  | _ => none

/-- `parts[i]` at a position that may be -1, which is the last one. -/
def item (parts : List Text) (i : Int) : Option Text :=
  if 0 ≤ i then parts[i.toNat]? else parts.getLast?

section Threads

variable {F : Type} (n : Numbers F) (times100 : F → F)

/-- The loop over the lines of the perf file. It stops at the first line that
names the processors. -/
def readPerf (lines : List Text) : Outcome F :=
  match lines.find? fun line => "CPUs utilized".toList <:+: line with
  | none => .noLine
  | some line =>
      match (words line).idxOf? "CPUs".toList with
      | none => .noToken
      | some i =>
          match (item (words line) ((i : Int) - 1)).bind fun part =>
              n.float (part.map fun c => if c = ',' then '.' else c) with
          | none => .notNumber
          | some utilized => .sample (times100 utilized)

def PerfRun.outcome : PerfRun → Outcome F
  | .processGone => .processGone
  | .commandFailed => .commandFailed
  | .output lines => readPerf n times100 lines

/-- The two lists of the server's thread. -/
structure PerfLists (F : Type) where
  perfTimestamps : List Datetime
  cpuUsageCpu2 : List F

/-- `collect_perf_data`, turn after turn. The stamp is taken when the line is
found, and taken back when its value is no number. The lists as a failed command
saves them are those that the thread leaves. -/
def collectPerfData : List (Datetime × PerfRun) → PerfLists F → PerfLists F
  | [], l => l
  | (now, perf) :: turns, l =>
      match perf.outcome n times100 with
      | .processGone => l
      | .commandFailed => l
      | .noLine => collectPerfData turns l
      | .noToken => { l with perfTimestamps := l.perfTimestamps ++ [now] }
      | .notNumber =>
          collectPerfData turns { l with perfTimestamps := (l.perfTimestamps ++ [now]).dropLast }
      | .sample percent =>
          collectPerfData turns ⟨l.perfTimestamps ++ [now], l.cpuUsageCpu2 ++ [percent]⟩

/-- A turn of the children's thread for one child. The disk counters are
`none` when psutil does not find the child any more. -/
structure ChildVisit (F : Type) where
  pid : Nat
  diskIo : Option (F × F)
  perf : PerfRun

/-- `children_data`, one dictionary for every list of a child. -/
structure ChildrenData (F : Type) where
  timestamps : GroupDict Nat Datetime
  diskIoRead : GroupDict Nat F
  diskIoWrite : GroupDict Nat F
  cpuUsagePerf : GroupDict Nat F

/-- `collect_child_data` over all rounds, visit after visit. The stamp is
appended first, whatever becomes of the visit. -/
def collectChildData : List (Datetime × ChildVisit F) → ChildrenData F → ChildrenData F
  | [], c => c
  | (now, v) :: visits, c =>
      let stamped := { c with timestamps := c.timestamps.append v.pid now }
      match v.diskIo with
      | none => stamped
      | some (read, write) =>
          let polled := { stamped with
            diskIoRead := c.diskIoRead.append v.pid read
            diskIoWrite := c.diskIoWrite.append v.pid write }
          match v.perf.outcome n times100 with
          | .noToken => polled
          | .sample percent =>
              collectChildData visits
                { polled with cpuUsagePerf := c.cpuUsagePerf.append v.pid percent }
          | _ => collectChildData visits polled

/-- A turn of the main thread. -/
structure Poll (F : Type) where
  memory : F
  diskRead : F
  diskWrite : F

/-- Everything that is saved. -/
structure Measurements (F : Type) where
  timestamps : List Datetime
  memoryUsage : List F
  diskIoRead : List F
  diskIoWrite : List F
  perf : PerfLists F
  children : ChildrenData F

/-- `collect_data`. -/
def collectData (polls : List (Datetime × Poll F)) (perf : PerfLists F)
    (children : ChildrenData F) : Measurements F where
  timestamps := polls.map Prod.fst
  memoryUsage := polls.map fun poll => poll.2.memory
  diskIoRead := polls.map fun poll => poll.2.diskRead
  diskIoWrite := polls.map fun poll => poll.2.diskWrite
  perf := perf
  children := children

/-- `f"{timestamp.strftime('%H:%M')}: {sample}\n"`. -/
def savedLine (entry : Datetime × F) : Text :=
  entry.1.strftimeHM ++ ':' :: ' ' :: (n.str entry.2 ++ ['\n'])

def savedLines (timestamps : List Datetime) (samples : List F) : List Text :=
  (timestamps.zip samples).map (savedLine n)

/-- `f'child_{pid}_<kind>.txt'`. -/
def childFile (pid : Nat) (kind : Text) : Text :=
  "child_".toList ++ (decimal pid ++ '_' :: (kind ++ ".txt".toList))

/-- The files that `save_data_to_files` writes, by name. -/
def saveDataToFiles (m : Measurements F) : List (Text × List Text) :=
  ("cpu_usage_cpu2.txt".toList, savedLines n m.perf.perfTimestamps m.perf.cpuUsageCpu2) ::
  ("memory_usage.txt".toList, savedLines n m.timestamps m.memoryUsage) ::
  ("disk_io_read.txt".toList, savedLines n m.timestamps m.diskIoRead) ::
  ("disk_io_write.txt".toList, savedLines n m.timestamps m.diskIoWrite) ::
  m.children.timestamps.keys.flatMap fun pid =>
    [(childFile pid "disk_io_read".toList,
        savedLines n (m.children.timestamps.get pid) (m.children.diskIoRead.get pid)),
      (childFile pid "disk_io_write".toList,
        savedLines n (m.children.timestamps.get pid) (m.children.diskIoWrite.get pid)),
      (childFile pid "cpu_usage_perf".toList,
        savedLines n (m.children.timestamps.get pid) (m.children.cpuUsagePerf.get pid))]

end Threads

/-- The turns that take place, up to the one that ends the thread. -/
def performed {α : Type} (ends : α → Bool) : List α → List α
  | [] => []
  | turn :: turns => if ends turn then [turn] else turn :: performed ends turns

/-- The turns with the time that the clock shows in each of them. -/
def timed {α : Type} (clock : ℕ → Datetime) (turns : List α) : List (Datetime × α) :=
  turns.mapIdx fun i turn => (clock i, turn)

/-- What the three threads find, turn after turn. -/
structure Run (F : Type) where
  polls : List (Poll F)
  perfRuns : List PerfRun
  visits : List (ChildVisit F)

/-- The times that the three threads read. -/
structure Clocks where
  main : ℕ → Datetime
  perf : ℕ → Datetime
  child : ℕ → Datetime

section Runs

variable {F : Type} (n : Numbers F) (times100 : F → F)

/-- The measurements that a run leaves. The threads share no list, so that a
save in the middle of a run finds those of a shorter run. -/
def collect (run : Run F) (clocks : Clocks) : Measurements F :=
  collectData (timed clocks.main run.polls)
    (collectPerfData n times100 (timed clocks.perf run.perfRuns) ⟨[], []⟩)
    (collectChildData n times100 (timed clocks.child run.visits) ⟨.empty, .empty, .empty, .empty⟩)

/-- The turns that end the server's thread. -/
def PerfRun.ends (perf : PerfRun) : Bool :=
  match perf.outcome n times100 with
  | .processGone => true
  | .commandFailed => true
  | .noToken => true
  | _ => false

/-- The visits that end the children's thread. -/
def ChildVisit.ends (v : ChildVisit F) : Bool :=
  match v.diskIo, v.perf.outcome n times100 with
  | none, _ => true
  | some _, .noToken => true
  | some _, _ => false

/-- The sample that a visit records. -/
def ChildVisit.sample? (v : ChildVisit F) : Option F :=
  v.diskIo.bind fun _ => (v.perf.outcome n times100).sample?

/-- The turns of the server's thread: their times, and the samples they record. -/
def Run.perfTurns (run : Run F) (clock : ℕ → Datetime) : List (Datetime × Option F) :=
  (timed clock (performed (PerfRun.ends n times100) run.perfRuns)).map fun turn =>
    (turn.1, (turn.2.outcome n times100).sample?)

/-- The visits that the children's thread makes. -/
def Run.visitsMade (run : Run F) : List (ChildVisit F) :=
  performed (ChildVisit.ends n times100) run.visits

/-- The visits to one child: their times, and the samples they record. -/
def Run.childTurns (run : Run F) (clock : ℕ → Datetime) (pid : Nat) :
    List (Datetime × Option F) :=
  ((timed clock (run.visitsMade n times100)).filter fun turn => turn.2.pid = pid).map fun turn =>
    (turn.1, turn.2.sample? n times100)

/-- In the files of processor samples, every line has the time of the turn that
recorded its sample. -/
structure KeepsTime (run : Run F) (clocks : Clocks) : Prop where
  server : ∀ lines,
    ("cpu_usage_cpu2.txt".toList, lines) ∈ saveDataToFiles n (collect n times100 run clocks) →
      lines = (ParallelLists.own (run.perfTurns n times100 clocks.perf)).map (savedLine n)
  child : ∀ pid lines,
    (childFile pid "cpu_usage_perf".toList, lines) ∈
        saveDataToFiles n (collect n times100 run clocks) →
      lines = (ParallelLists.own (run.childTurns n times100 clocks.child pid)).map (savedLine n)

/-- No visit without a sample comes before a visit to the same child that
records one. -/
def SamplesFirst (run : Run F) : Prop :=
  (run.visitsMade n times100).Pairwise fun earlier later =>
    earlier.pid = later.pid → (later.sample? n times100).isSome →
      (earlier.sample? n times100).isSome

end Runs

section Lists

variable {α : Type}

theorem timed_cons (clock : ℕ → Datetime) (turn : α) (turns : List α) :
    timed clock (turn :: turns) = (clock 0, turn) :: timed (fun i => clock (i + 1)) turns :=
  List.mapIdx_cons

theorem timed_append (clock : ℕ → Datetime) (first second : List α) :
    timed clock (first ++ second) =
      timed clock first ++ timed (fun i => clock (i + first.length)) second := by
  rw [timed, timed, timed, List.mapIdx_append]

theorem map_snd_timed (clock : ℕ → Datetime) (turns : List α) :
    (timed clock turns).map Prod.snd = turns := by
  induction turns generalizing clock with
  | nil => rfl
  | cons turn turns ih => rw [timed_cons, List.map_cons, ih]

/-- A clock that stands still in all turns. -/
theorem timed_of_forall {clock : ℕ → Datetime} {t : Datetime} {turns : List α}
    (h : ∀ i, i < turns.length → clock i = t) :
    timed clock turns = turns.map fun turn => (t, turn) := by
  induction turns generalizing clock with
  | nil => rfl
  | cons turn turns ih =>
      rw [timed_cons, List.map_cons, h 0 (by simp), ih]
      intro i hi
      exact h (i + 1) (by simpa using hi)

theorem performed_timed (ends : α → Bool) (clock : ℕ → Datetime) (turns : List α) :
    performed (fun turn => ends turn.2) (timed clock turns) =
      timed clock (performed ends turns) := by
  induction turns generalizing clock with
  | nil => rfl
  | cons turn turns ih =>
      rw [timed_cons, performed, performed]
      by_cases hEnds : ends turn = true
      · rw [if_pos hEnds, if_pos hEnds]
        rfl
      · rw [if_neg hEnds, if_neg hEnds, timed_cons, ih]

end Lists

section Steps

variable {F : Type} (n : Numbers F) (times100 : F → F)

/-- The lists of the server's thread stay equally long while it runs, so that
they join every sample with its own stamp. -/
theorem collectPerfData_zip (turns : List (Datetime × PerfRun)) {l : PerfLists F}
    (h : l.perfTimestamps.length = l.cpuUsageCpu2.length) :
    (collectPerfData n times100 turns l).perfTimestamps.zip
        (collectPerfData n times100 turns l).cpuUsageCpu2 =
      l.perfTimestamps.zip l.cpuUsageCpu2 ++
        ParallelLists.own ((performed (fun turn => turn.2.ends n times100) turns).map fun turn =>
          (turn.1, (turn.2.outcome n times100).sample?)) := by
  induction turns generalizing l with
  | nil => simp [collectPerfData, performed]
  | cons turn turns ih =>
      obtain ⟨now, perf⟩ := turn
      rw [collectPerfData, performed]
      cases hOutcome : perf.outcome n times100 with
      | processGone => simp [PerfRun.ends, hOutcome, Outcome.sample?]
      | commandFailed => simp [PerfRun.ends, hOutcome, Outcome.sample?]
      | noLine => simpa [PerfRun.ends, hOutcome, Outcome.sample?] using ih h
      | noToken =>
          have hZip : (l.perfTimestamps ++ [now]).zip l.cpuUsageCpu2 =
              l.perfTimestamps.zip l.cpuUsageCpu2 := by
            conv_lhs => rw [← List.append_nil l.cpuUsageCpu2, List.zip_append h]
            rw [List.zip_nil_right, List.append_nil]
          simp [PerfRun.ends, hOutcome, Outcome.sample?, hZip]
      | notNumber => simpa [PerfRun.ends, hOutcome, Outcome.sample?] using ih h
      | sample percent =>
          have hNext : (l.perfTimestamps ++ [now]).length =
              (l.cpuUsageCpu2 ++ [percent]).length := by
            rw [List.length_append, List.length_append, h]
            rfl
          have hTail := ih (l := ⟨l.perfTimestamps ++ [now], l.cpuUsageCpu2 ++ [percent]⟩) hNext
          rw [List.zip_append h] at hTail
          simpa [PerfRun.ends, hOutcome, Outcome.sample?] using hTail

/-- The lists of one child: a stamp for every visit, and the samples. -/
theorem collectChildData_lists (visits : List (Datetime × ChildVisit F)) (c : ChildrenData F)
    (pid : Nat) :
    (collectChildData n times100 visits c).timestamps.get pid =
        c.timestamps.get pid ++
          (((performed (fun visit => visit.2.ends n times100) visits).filter
            fun visit => visit.2.pid = pid).map fun visit => visit.1) ∧
      (collectChildData n times100 visits c).cpuUsagePerf.get pid =
        c.cpuUsagePerf.get pid ++
          (((performed (fun visit => visit.2.ends n times100) visits).filter
            fun visit => visit.2.pid = pid).filterMap fun visit => visit.2.sample? n times100) := by
  induction visits generalizing c with
  | nil => simp [collectChildData, performed]
  | cons visit visits ih =>
      obtain ⟨now, v⟩ := visit
      rw [collectChildData, performed]
      cases hDisk : v.diskIo with
      | none =>
          obtain rfl | hPid := eq_or_ne v.pid pid
          · simp [ChildVisit.ends, ChildVisit.sample?, hDisk, GroupDict.get_append]
          · simp [ChildVisit.ends, hDisk, GroupDict.get_append, hPid, hPid.symm]
      | some counters =>
          cases hOutcome : v.perf.outcome n times100 with
          | noToken =>
              obtain rfl | hPid := eq_or_ne v.pid pid
              · simp [ChildVisit.ends, ChildVisit.sample?, hDisk, hOutcome, Outcome.sample?,
                  GroupDict.get_append]
              · simp [ChildVisit.ends, hDisk, hOutcome, GroupDict.get_append, hPid, hPid.symm]
          | _ =>
              obtain rfl | hPid := eq_or_ne v.pid pid
              · simp [ChildVisit.ends, ChildVisit.sample?, hDisk, hOutcome, Outcome.sample?, ih,
                  GroupDict.get_append]
              · simp [ChildVisit.ends, hDisk, hOutcome, ih, GroupDict.get_append, hPid, hPid.symm]

end Steps

section Files

variable {F : Type} (n : Numbers F)

theorem childFile_inj {p q : Nat} {first second : Text} :
    childFile p first = childFile q second ↔ p = q ∧ first = second := by
  constructor
  · intro h
    have hTail := List.append_cancel_left h
    have hDigits (k : Nat) (rest : Text) :
        (decimal k ++ '_' :: rest).takeWhile Char.isDigit = decimal k := by
      rw [List.takeWhile_append_of_pos (isNumeral_decimal k).2,
        List.takeWhile_cons_of_neg (by decide),
        List.append_nil]
    have hDecimal : decimal p = decimal q := by
      rw [← hDigits p (first ++ ".txt".toList), hTail, hDigits]
    have hPid : p = q := by
      have hRead := congrArg parseInt hDecimal
      rw [parseInt_decimal, parseInt_decimal] at hRead
      exact Int.ofNat.inj (Option.some.inj hRead)
    rw [hDecimal] at hTail
    have hKind := (List.cons.inj (List.append_cancel_left hTail)).2
    exact ⟨hPid, List.append_cancel_right hKind⟩
  · rintro ⟨rfl, rfl⟩
    rfl

/-- The names of the other files do not begin with `ch`. -/
theorem childFile_ne (pid : Nat) (kind : Text) {name : Text}
    (h : name.take 2 ≠ ['c', 'h']) : childFile pid kind ≠ name := by
  rintro rfl
  exact h rfl

/-- One file of samples for the server. -/
theorem mem_saveDataToFiles_server {m : Measurements F} {lines : List Text} :
    ("cpu_usage_cpu2.txt".toList, lines) ∈ saveDataToFiles n m ↔
      lines = savedLines n m.perf.perfTimestamps m.perf.cpuUsageCpu2 := by
  have hChild (pid : Nat) (kind : Text) : ¬ "cpu_usage_cpu2.txt".toList = childFile pid kind :=
    (childFile_ne pid kind (by decide)).symm
  simp only [saveDataToFiles, List.mem_cons, Prod.mk.injEq, List.mem_flatMap, hChild, false_and,
    List.not_mem_nil, or_false, and_false, exists_const]
  have hOther : ¬ "cpu_usage_cpu2.txt".toList = "memory_usage.txt".toList ∧
      ¬ "cpu_usage_cpu2.txt".toList = "disk_io_read.txt".toList ∧
      ¬ "cpu_usage_cpu2.txt".toList = "disk_io_write.txt".toList := by decide
  simp only [hOther, true_and, false_and, or_false]

/-- One file of samples for every child that has been visited. -/
theorem mem_saveDataToFiles_child {m : Measurements F} {pid : Nat} {lines : List Text} :
    (childFile pid "cpu_usage_perf".toList, lines) ∈ saveDataToFiles n m ↔
      pid ∈ m.children.timestamps.keys ∧
        lines = savedLines n (m.children.timestamps.get pid) (m.children.cpuUsagePerf.get pid) := by
  have hOther (name : Text) (h : name.take 2 ≠ ['c', 'h']) :
      ¬ childFile pid "cpu_usage_perf".toList = name := childFile_ne pid _ h
  have hKind : ¬ "cpu_usage_perf".toList = "disk_io_read".toList ∧
      ¬ "cpu_usage_perf".toList = "disk_io_write".toList := by decide
  simp only [saveDataToFiles, List.mem_cons, Prod.mk.injEq, List.mem_flatMap,
    hOther "cpu_usage_cpu2.txt".toList (by decide),
    hOther "memory_usage.txt".toList (by decide),
    hOther "disk_io_read.txt".toList (by decide),
    hOther "disk_io_write.txt".toList (by decide),
    childFile_inj, hKind, and_false, false_and, false_or, and_true, List.not_mem_nil, or_false]
  constructor
  · rintro ⟨other, hOtherMem, rfl, hLines⟩
    exact ⟨hOtherMem, hLines⟩
  · rintro ⟨hMem, hLines⟩
    exact ⟨pid, hMem, rfl, hLines⟩

end Files

section Pairing

variable {F : Type} (n : Numbers F) (times100 : F → F)

/-- The server's file pairs every sample with the time of its own turn. -/
theorem savedLines_server (run : Run F) (clocks : Clocks) :
    savedLines n (collect n times100 run clocks).perf.perfTimestamps
        (collect n times100 run clocks).perf.cpuUsageCpu2 =
      (ParallelLists.own (run.perfTurns n times100 clocks.perf)).map (savedLine n) := by
  have hZip := collectPerfData_zip n times100 (timed clocks.perf run.perfRuns)
    (l := ⟨[], []⟩) rfl
  rw [performed_timed] at hZip
  exact congrArg (List.map (savedLine n)) hZip

/-- The lists of a child hold the stamps of all its visits, and their samples. -/
theorem collect_children (run : Run F) (clocks : Clocks) (pid : Nat) :
    (collect n times100 run clocks).children.timestamps.get pid =
        (run.childTurns n times100 clocks.child pid).map Prod.fst ∧
      (collect n times100 run clocks).children.cpuUsagePerf.get pid =
        (run.childTurns n times100 clocks.child pid).filterMap Prod.snd := by
  obtain ⟨hStamps, hSamples⟩ := collectChildData_lists n times100 (timed clocks.child run.visits)
    ⟨.empty, .empty, .empty, .empty⟩ pid
  rw [performed_timed, GroupDict.get_empty, List.nil_append] at hStamps hSamples
  rw [Run.childTurns, List.map_map, List.filterMap_map]
  exact ⟨hStamps, hSamples⟩

/-- A child's file joins its samples with the times of its first visits. -/
theorem savedLines_child (run : Run F) (clocks : Clocks) (pid : Nat) :
    savedLines n ((collect n times100 run clocks).children.timestamps.get pid)
        ((collect n times100 run clocks).children.cpuUsagePerf.get pid) =
      (ParallelLists.joined (run.childTurns n times100 clocks.child pid)).map (savedLine n) := by
  obtain ⟨hStamps, hSamples⟩ := collect_children n times100 run clocks pid
  rw [hStamps, hSamples]
  rfl

theorem valuesFirst_childTurns {run : Run F} (h : SamplesFirst n times100 run)
    (clock : ℕ → Datetime) (pid : Nat) :
    ParallelLists.ValuesFirst (run.childTurns n times100 clock pid) := by
  have hTimed : (timed clock (run.visitsMade n times100)).Pairwise fun earlier later =>
      earlier.2.pid = later.2.pid → (later.2.sample? n times100).isSome →
        (earlier.2.sample? n times100).isSome := by
    rw [SamplesFirst, ← map_snd_timed clock (run.visitsMade n times100), List.pairwise_map] at h
    exact h
  rw [ParallelLists.ValuesFirst, Run.childTurns, List.pairwise_map]
  refine (hTimed.filter _).imp_of_mem ?_
  intro earlier later hEarlier hLater hOrder
  have hFirst : earlier.2.pid = pid := by simpa using (List.mem_filter.mp hEarlier).2
  have hSecond : later.2.pid = pid := by simpa using (List.mem_filter.mp hLater).2
  exact hOrder (hFirst.trans hSecond.symm)

def midnight : Datetime := .ofSeconds 739202 0

def minutePast : Datetime := .ofSeconds 739202 60

/-- Clocks that show midnight up to this visit, and a minute past it afterwards. -/
def turningAt (last : Nat) : Clocks where
  main _ := midnight
  perf _ := midnight
  child i := if i ≤ last then midnight else minutePast

/-- The visits to one child, with one time for all of them. -/
def shownAt (t : Datetime) (visits : List (ChildVisit F)) (pid : Nat) :
    List (Datetime × Option F) :=
  (visits.filter fun visit => visit.pid = pid).map fun visit => (t, visit.sample? n times100)

theorem mem_shownAt {t : Datetime} {visits : List (ChildVisit F)} {v : ChildVisit F}
    (hv : v ∈ visits) : (t, v.sample? n times100) ∈ shownAt n times100 t visits v.pid :=
  List.mem_map.mpr ⟨v, List.mem_filter.mpr ⟨hv, decide_eq_true rfl⟩, rfl⟩

theorem eq_of_mem_shownAt {t mark : Datetime} {visits : List (ChildVisit F)} {pid : Nat}
    (h : mark ∈ (shownAt n times100 t visits pid).map Prod.fst) : mark = t := by
  rw [shownAt, List.map_map] at h
  obtain ⟨_, _, rfl⟩ := List.mem_map.mp h
  rfl

theorem childTurns_turningAt {run : Run F} {before after : List (ChildVisit F)}
    {v : ChildVisit F} (hSplit : run.visitsMade n times100 = (before ++ [v]) ++ after)
    (pid : Nat) : run.childTurns n times100 (turningAt before.length).child pid =
      shownAt n times100 midnight (before ++ [v]) pid ++
        shownAt n times100 minutePast after pid := by
  have hBefore : timed (turningAt before.length).child (before ++ [v]) =
      (before ++ [v]).map fun visit => (midnight, visit) := by
    apply timed_of_forall
    intro i hi
    rw [List.length_append, List.length_singleton] at hi
    exact if_pos (by omega)
  have hAfter :
      timed (fun i => (turningAt before.length).child (i + (before ++ [v]).length)) after =
        after.map fun visit => (minutePast, visit) := by
    apply timed_of_forall
    intro i _
    rw [List.length_append, List.length_singleton]
    exact if_neg (by omega)
  rw [Run.childTurns, hSplit, timed_append, hBefore, hAfter, List.filter_append, List.map_append,
    List.filter_map, List.filter_map, List.map_map, List.map_map]
  rfl

/-- Lines of one sample show different minutes only if they differ. -/
theorem strftimeHM_eq_of_savedLine {s t : Datetime} {sample : F}
    (h : savedLine n (s, sample) = savedLine n (t, sample)) : s.strftimeHM = t.strftimeHM :=
  List.append_cancel_right h

/-- A visit without a sample shifts the next sample of the child to an earlier
time. -/
theorem not_keepsTime_turningAt {run : Run F} {before after : List (ChildVisit F)}
    {v w : ChildVisit F} (hSplit : run.visitsMade n times100 = (before ++ [v]) ++ after)
    (hw : w ∈ after) (hPid : v.pid = w.pid) (hGap : v.sample? n times100 = none)
    (hSample : w.sample? n times100 ≠ none) :
    ¬ KeepsTime n times100 run (turningAt before.length) := by
  intro hKeeps
  have hTurns := childTurns_turningAt n times100 hSplit v.pid
  have hGapTurn : (midnight, v.sample? n times100) ∈
      shownAt n times100 midnight (before ++ [v]) v.pid := mem_shownAt n times100 (by simp)
  have hSampleTurn : (minutePast, w.sample? n times100) ∈
      shownAt n times100 minutePast after v.pid := hPid ▸ mem_shownAt n times100 hw
  obtain ⟨k, wrong, right, value, hJoined, hOwn, hWrong, hRight⟩ :=
    ParallelLists.exists_shifted _ _ ⟨_, hGapTurn, hGap⟩ ⟨_, hSampleTurn, hSample⟩
  obtain rfl := eq_of_mem_shownAt n times100 hWrong
  obtain rfl := eq_of_mem_shownAt n times100 hRight
  rw [← hTurns] at hJoined hOwn
  have hStamp : midnight ∈
      (collect n times100 run (turningAt before.length)).children.timestamps.get v.pid := by
    rw [(collect_children n times100 run _ v.pid).1, hTurns, List.map_append]
    exact List.mem_append_left _ (List.mem_map_of_mem (f := Prod.fst) hGapTurn)
  have hFile := hKeeps.child v.pid _
    ((mem_saveDataToFiles_child n).mpr ⟨GroupDict.mem_keys_of_mem_get hStamp, rfl⟩)
  rw [savedLines_child] at hFile
  have hLine := congrArg (fun lines : List Text => lines[k]?) hFile
  simp only [List.getElem?_map, hJoined, hOwn, Option.map_some, Option.some.injEq] at hLine
  exact absurd (strftimeHM_eq_of_savedLine n hLine) (by decide)

/-- Every processor sample keeps its own time, whatever the clocks show,
exactly when no visit to a child fails to record a sample before a later visit
to this child records one. -/
theorem keepsTime_iff (run : Run F) :
    (∀ clocks, KeepsTime n times100 run clocks) ↔ SamplesFirst n times100 run := by
  constructor
  · intro h
    refine List.pairwise_iff_forall_sublist.mpr ?_
    intro v w hSublist hPid hSample
    by_contra hGap
    obtain ⟨upTo, after, hSplit, hv, hw⟩ := List.cons_sublist_iff.mp hSublist
    obtain ⟨before, between, rfl⟩ := List.append_of_mem hv
    have hAround : run.visitsMade n times100 = (before ++ [v]) ++ (between ++ after) := by
      rw [hSplit]
      simp
    exact not_keepsTime_turningAt n times100 hAround
      (List.mem_append_right _ (List.singleton_sublist.mp hw)) hPid (by simpa using hGap)
      (Option.isSome_iff_ne_none.mp hSample) (h (turningAt before.length))
  · intro h clocks
    constructor
    · intro lines hFile
      rw [(mem_saveDataToFiles_server n).mp hFile, savedLines_server]
    · intro pid lines hFile
      rw [((mem_saveDataToFiles_child n).mp hFile).2, savedLines_child,
        ParallelLists.joined_eq_own (valuesFirst_childTurns n times100 h clocks.child pid)]

end Pairing

/-- One child. Its first perf command fails, and its second one reports a
processor in full use. -/
def failedThenSampled : Run ℤ where
  polls := []
  perfRuns := []
  visits :=
    [⟨7, some (0, 0), .commandFailed⟩,
      ⟨7, some (0, 0),
        .output ["  10.05 msec cpu-clock  #    1.000 CPUs utilized\n".toList]⟩]

/-- The sample of the second visit is saved with the time of the first. -/
theorem failedThenSampled_shifted :
    (childFile 7 "cpu_usage_perf".toList, ["00:00: 100.0\n".toList]) ∈
        saveDataToFiles wholeFloats
          (collect wholeFloats (· * 100) failedThenSampled (turningAt 0)) ∧
      (ParallelLists.own (failedThenSampled.childTurns wholeFloats (· * 100)
        (turningAt 0).child 7)).map (savedLine wholeFloats) = ["00:01: 100.0\n".toList] ∧
      ¬ KeepsTime wholeFloats (· * 100) failedThenSampled (turningAt 0) := by
  have hSaved : (childFile 7 "cpu_usage_perf".toList, ["00:00: 100.0\n".toList]) ∈
      saveDataToFiles wholeFloats
        (collect wholeFloats (· * 100) failedThenSampled (turningAt 0)) := by
    decide +kernel
  have hOwn : (ParallelLists.own (failedThenSampled.childTurns wholeFloats (· * 100)
      (turningAt 0).child 7)).map (savedLine wholeFloats) = ["00:01: 100.0\n".toList] := by
    decide +kernel
  refine ⟨hSaved, hOwn, ?_⟩
  intro hKeeps
  have hLines := hKeeps.child 7 _ hSaved
  rw [hOwn] at hLines
  exact absurd hLines (by decide)

end Plots.RedisPlot
