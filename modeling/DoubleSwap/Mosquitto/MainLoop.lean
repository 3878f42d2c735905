import Mathlib.Data.List.Chain
import Mathlib.Tactic.SplitIfs

/-! `mosquitto_main_loop` with its console branch. The branch looks at `input`
after a `read` whose result it does not look at. -/
namespace Mosquitto

/-- Why `persist__backup` is called. -/
inductive Cause where
  | console
  | autosave
  | signal
  deriving DecidableEq, Repr

/-- What the loop leaves in its log. -/
inductive Event where
  /-- The byte that a `read` delivers. -/
  | read (byte : UInt8)
  | endOfFile
  | readError
  /-- A call of `persist__backup`. -/
  | backup (cause : Cause)
  deriving DecidableEq, Repr

/-- What standard input does when it is polled. -/
inductive Stdin where
  | notReady
  | byte (byte : UInt8)
  | endOfFile
  | readError
  deriving DecidableEq, Repr

structure Config where
  persistence : Bool
  autosaveInterval : Int
  autosaveOnChanges : Bool
  deriving DecidableEq, Repr

/-- What an iteration meets. -/
structure Iteration where
  run : Bool
  /-- The result of `mux__handle`. -/
  handled : Int
  config : Config
  /-- What is written to the place of `input` while it is out of scope. -/
  overwritten : Option UInt8
  stdin : Stdin
  now : Int
  /-- The changes to persist since the last iteration. -/
  changes : Int
  /-- The signal that asks for a backup. -/
  backupSignal : Bool
  deriving DecidableEq, Repr

structure Loop where
  input : UInt8
  persistenceChanges : Int
  lastBackup : Int
  flagDbBackup : Bool
  log : List Event
  returned : Option Int
  deriving DecidableEq, Repr

/-- `input == 'K' || input == 'k'`. -/
def isKey (input : UInt8) : Bool := input = 0x4B ∨ input = 0x6B

namespace Loop

variable (it : Iteration) (s : Loop)

def record (event : Event) (s : Loop) : Loop := { s with log := s.log ++ [event] }

/-- The value of `input` when its block is entered. -/
def cell : UInt8 := it.overwritten.getD s.input

/-- The test after the `read`. -/
def test (s : Loop) : Loop := if isKey s.input then s.record (.backup .console) else s

/-- The console branch. -/
def console : Loop :=
  let entered := { s with input := s.cell it }
  match it.stdin with
  | .notReady => entered
  | .byte byte => { entered.record (.read byte) with input := byte }.test
  | .endOfFile => (entered.record .endOfFile).test
  | .readError => (entered.record .readError).test

/-- The backups that are due after changes or after some time. -/
def autosave : Loop :=
  if it.config.persistence ∧ it.config.autosaveInterval ≠ 0 then
    if it.config.autosaveOnChanges then
      if it.config.autosaveInterval ≤ s.persistenceChanges then
        { s.record (.backup .autosave) with persistenceChanges := 0 }
      else s
    else if s.lastBackup + it.config.autosaveInterval < it.now then
      { s.record (.backup .autosave) with lastBackup := it.now }
    else s
  else s

/-- The backup that a signal asked for. -/
def signalled : Loop :=
  if s.flagDbBackup then { s.record (.backup .signal) with flagDbBackup := false } else s

/-- What happens outside the loop before an iteration. -/
def meet : Loop :=
  { s with
    persistenceChanges := s.persistenceChanges + it.changes
    flagDbBackup := s.flagDbBackup || it.backupSignal }

/-- An iteration. -/
def iterate : Loop :=
  if s.returned ≠ none then s
  else if ¬ it.run then { s with returned := some 0 }
  else if it.handled ≠ 0 then { s with returned := some it.handled }
  else (((s.meet it).console it).autosave it).signalled

/-- The iteration comes to the console branch. -/
def Enters : Prop := s.returned = none ∧ it.run ∧ it.handled = 0

/-- Where the loop begins. -/
def start (input : UInt8) (changes now : Int) (flagDbBackup : Bool) : Loop :=
  ⟨input, changes, now, flagDbBackup, [], none⟩

end Loop

/-- `mosquitto_main_loop`. -/
def mainLoop (iterations : List Iteration) (s : Loop) : Loop :=
  iterations.foldl (fun s it => s.iterate it) s

/-- A key press that asks for a dump. -/
def Event.isKeyPress : Event → Bool
  | .read byte => isKey byte
  | _ => false

/-- A dump from the console comes right after a key press. -/
def FollowsKey (earlier later : Event) : Prop := later = .backup .console → earlier.isKeyPress

/-- As many dumps as key presses, and each dump right after its key press. -/
structure DumpsMatchKeys (log : List Event) : Prop where
  count : log.count (.backup .console) = log.countP Event.isKeyPress
  first : log.head? ≠ some (.backup .console)
  cause : log.IsChain FollowsKey

/-- The `read` fails or comes to the end, and delivers no byte. -/
def Stdin.delivers : Stdin → Bool
  | .endOfFile | .readError => false
  | _ => true

/-- What the console branch leaves in the log. -/
def Loop.consoleEvents (it : Iteration) (s : Loop) : List Event :=
  let dump (input : UInt8) : List Event := if isKey input then [.backup .console] else []
  match it.stdin with
  | .notReady => []
  | .byte byte => .read byte :: dump byte
  | .endOfFile => .endOfFile :: dump (s.cell it)
  | .readError => .readError :: dump (s.cell it)

/-- A backup that the console did not ask for. -/
def Event.isOther : Event → Bool
  | .backup .autosave | .backup .signal => true
  | _ => false

namespace Loop

variable (it : Iteration) (s : Loop)

theorem test_log : s.test.log = s.log ++ if isKey s.input then [.backup .console] else [] := by
  rw [test]
  split_ifs
  · rfl
  · exact (List.append_nil s.log).symm

theorem console_log : (s.console it).log = s.log ++ s.consoleEvents it := by
  rw [console, consoleEvents]
  cases it.stdin with
  | notReady => exact (List.append_nil s.log).symm
  | byte byte => exact (test_log _).trans (List.append_assoc s.log [.read byte] _)
  | endOfFile => exact (test_log _).trans (List.append_assoc s.log [.endOfFile] _)
  | readError => exact (test_log _).trans (List.append_assoc s.log [.readError] _)

theorem autosave_log :
    ∃ others, (s.autosave it).log = s.log ++ others ∧ ∀ event ∈ others, event.isOther := by
  have hNone : ∃ others, s.log = s.log ++ others ∧ ∀ event ∈ others, event.isOther :=
    ⟨[], (List.append_nil s.log).symm, fun _ h => (List.not_mem_nil h).elim⟩
  have hBackup : ∃ others, s.log ++ [.backup .autosave] = s.log ++ others ∧
      ∀ event ∈ others, event.isOther :=
    ⟨[.backup .autosave], rfl, fun event h => by rw [List.mem_singleton.mp h]; rfl⟩
  rw [autosave]
  split_ifs
  · exact hBackup
  · exact hNone
  · exact hBackup
  · exact hNone
  · exact hNone

theorem signalled_log :
    ∃ others, s.signalled.log = s.log ++ others ∧ ∀ event ∈ others, event.isOther := by
  rw [signalled]
  split_ifs
  · exact ⟨[.backup .signal], rfl, fun event h => by rw [List.mem_singleton.mp h]; rfl⟩
  · exact ⟨[], (List.append_nil s.log).symm, fun _ h => (List.not_mem_nil h).elim⟩

/-- An iteration adds the events of the console and then backups of other causes. -/
theorem iterate_log_of_enters (h : s.Enters it) :
    ∃ others, (s.iterate it).log = s.log ++ s.consoleEvents it ++ others ∧
      ∀ event ∈ others, event.isOther := by
  obtain ⟨hRunning, hRun, hHandled⟩ := h
  obtain ⟨saved, hSaved, hSavedOther⟩ := autosave_log it ((s.meet it).console it)
  obtain ⟨asked, hAsked, hAskedOther⟩ := signalled_log (((s.meet it).console it).autosave it)
  refine ⟨saved ++ asked, ?_, ?_⟩
  · rw [iterate, if_neg (not_not.mpr hRunning), if_neg (not_not.mpr hRun),
      if_neg (not_not.mpr hHandled), hAsked, hSaved, console_log, List.append_assoc _ saved]
    rfl
  · intro event hEvent
    rcases List.mem_append.mp hEvent with hIn | hIn
    · exact hSavedOther event hIn
    · exact hAskedOther event hIn

theorem iterate_log_of_not_enters (h : ¬ s.Enters it) : (s.iterate it).log = s.log := by
  rw [iterate]
  by_cases hReturned : s.returned = none
  · rw [if_neg (not_not.mpr hReturned)]
    by_cases hRun : it.run = true
    · have hHandled : it.handled ≠ 0 := fun hZero => h ⟨hReturned, hRun, hZero⟩
      rw [if_neg (not_not.mpr hRun), if_pos hHandled]
    · rw [if_pos hRun]
  · rw [if_pos hReturned]

end Loop

section Match

variable {log : List Event}

theorem dumpsMatchKeys_nil : DumpsMatchKeys [] where
  count := rfl
  first := fun hNone => by cases hNone
  cause := List.IsChain.nil

/-- Backups of other causes change nothing. -/
theorem dumpsMatchKeys_append_others {others : List Event}
    (hOthers : ∀ event ∈ others, event.isOther) :
    DumpsMatchKeys (log ++ others) ↔ DumpsMatchKeys log := by
  have hNoDump : .backup .console ∉ others := fun hDump => by cases hOthers _ hDump
  have hNoKey : others.countP Event.isKeyPress = 0 := by
    rw [List.countP_eq_zero]
    intro event hEvent hKey
    have hOther := hOthers event hEvent
    cases event <;> simp_all [Event.isOther, Event.isKeyPress]
  have hHead : (log ++ others).head? ≠ some (.backup .console) ↔
      log.head? ≠ some (.backup .console) := by
    cases log with
    | nil => exact iff_of_true (fun hDump => hNoDump (List.mem_of_head? hDump)) (by simp)
    | cons event rest => rfl
  have hChain : others.IsChain FollowsKey := by
    refine List.Pairwise.isChain (List.pairwise_of_forall_mem_list ?_)
    intro _ _ later hLater hDump
    exact (hNoDump (hDump ▸ hLater)).elim
  constructor
  · rintro ⟨hCount, hFirst, hCause⟩
    rw [List.count_append, List.countP_append, List.count_eq_zero.mpr hNoDump, hNoKey] at hCount
    exact ⟨hCount, hHead.mp hFirst, (List.isChain_append.mp hCause).1⟩
  · rintro ⟨hCount, hFirst, hCause⟩
    refine ⟨?_, hHead.mpr hFirst, List.isChain_append.mpr ⟨hCause, hChain, ?_⟩⟩
    · rw [List.count_append, List.countP_append, List.count_eq_zero.mpr hNoDump, hNoKey, hCount]
    · intro _ _ later hLater hDump
      exact (hNoDump (hDump ▸ List.mem_of_mem_head? hLater)).elim

/-- Events that do not begin with a dump are matched among themselves. -/
theorem DumpsMatchKeys.append_iff (h : DumpsMatchKeys log) {events : List Event}
    (hHead : events.head? ≠ some (.backup .console)) :
    DumpsMatchKeys (log ++ events) ↔ DumpsMatchKeys events := by
  have hCount : (log ++ events).count (.backup .console) =
        (log ++ events).countP Event.isKeyPress ↔
      events.count (.backup .console) = events.countP Event.isKeyPress := by
    rw [List.count_append, List.countP_append, h.count, Nat.add_left_cancel_iff]
  have hFirst : (log ++ events).head? ≠ some (.backup .console) := by
    cases log with
    | nil => exact hHead
    | cons event rest => exact h.first
  constructor
  · rintro ⟨hSame, _, hCause⟩
    exact ⟨hCount.mp hSame, hHead, (List.isChain_append.mp hCause).2.1⟩
  · rintro ⟨hSame, _, hCause⟩
    refine ⟨hCount.mpr hSame, hFirst, List.isChain_append.mpr ⟨h.cause, hCause, ?_⟩⟩
    intro _ _ later hLater hDump
    rw [hDump] at hLater
    exact (hHead hLater).elim

/-- A console dump belongs to the byte that its `read` delivers. -/
theorem dumpsMatchKeys_consoleEvents (it : Iteration) (s : Loop) :
    DumpsMatchKeys (s.consoleEvents it) ↔
      (it.stdin.delivers = false → isKey (s.cell it) = false) := by
  have hFails (event : Event) (hEvent : event.isKeyPress = false)
      (hOther : event ≠ .backup .console) (input : UInt8) :
      DumpsMatchKeys (event :: if isKey input then [.backup .console] else []) ↔
        isKey input = false := by
    cases hKey : isKey input with
    | false =>
        refine iff_of_true ⟨?_, fun hDump => hOther (Option.some.inj hDump), ?_⟩ rfl
        · simp [hEvent, hOther]
        · exact List.IsChain.singleton event
    | true =>
        refine iff_of_false ?_ (by decide)
        rintro ⟨_, _, hCause⟩
        have hPress := (List.isChain_cons_cons.mp hCause).1 rfl
        rw [hEvent] at hPress
        cases hPress
  rw [Loop.consoleEvents]
  cases it.stdin with
  | notReady => exact iff_of_true dumpsMatchKeys_nil fun hNever => by cases hNever
  | byte byte =>
      refine iff_of_true ?_ fun hNever => by cases hNever
      cases hKey : isKey byte with
      | false => simpa [hKey] using (hFails (.read byte) hKey (by simp) byte).mpr hKey
      | true =>
          refine ⟨?_, by simp, ?_⟩
          · simp [hKey, Event.isKeyPress]
          · have hPress : (Event.read byte).isKeyPress = true := hKey
            have hFollows : FollowsKey (.read byte) (.backup .console) := fun _ => hPress
            simpa only [hKey, if_true] using
              List.isChain_cons_cons.mpr ⟨hFollows, List.IsChain.singleton _⟩
  | endOfFile =>
      rw [hFails _ rfl (by simp)]
      exact ⟨fun hQuiet _ => hQuiet, fun hQuiet => hQuiet rfl⟩
  | readError =>
      rw [hFails _ rfl (by simp)]
      exact ⟨fun hQuiet _ => hQuiet, fun hQuiet => hQuiet rfl⟩

/-- An iteration keeps dumps and key presses matched exactly if no `read` without
a byte leaves a key in `input`. -/
theorem dumpsMatchKeys_iterate (it : Iteration) {s : Loop} (h : DumpsMatchKeys s.log) :
    DumpsMatchKeys (s.iterate it).log ↔
      (s.Enters it → it.stdin.delivers = false → isKey (s.cell it) = false) := by
  by_cases hEnters : s.Enters it
  · obtain ⟨others, hLog, hOthers⟩ := s.iterate_log_of_enters it hEnters
    have hHead : (s.consoleEvents it).head? ≠ some (.backup .console) := by
      rw [Loop.consoleEvents]
      cases it.stdin <;> simp
    rw [hLog, dumpsMatchKeys_append_others hOthers, h.append_iff hHead,
      dumpsMatchKeys_consoleEvents]
    exact ⟨fun hQuiet _ => hQuiet, fun hQuiet => hQuiet hEnters⟩
  · rw [s.iterate_log_of_not_enters it hEnters]
    exact iff_of_true h fun hNever => (hEnters hNever).elim

end Match

theorem mainLoop_take_succ {its : List Iteration} {n : Nat} {it : Iteration}
    (h : its[n]? = some it) (s : Loop) :
    mainLoop (its.take (n + 1)) s = (mainLoop (its.take n) s).iterate it := by
  rw [mainLoop, List.take_add_one, h, Option.toList_some, List.foldl_append]
  rfl

/-- At every point of a run there are as many dumps from the console as key
presses, each right after its key press, exactly if no `read` at the end of the
file or with an error finds a key that is left in `input`. -/
theorem console_dumps_iff (its : List Iteration) (input : UInt8) (changes now : Int)
    (flagDbBackup : Bool) :
    (∀ n, DumpsMatchKeys (mainLoop (its.take n) (.start input changes now flagDbBackup)).log) ↔
      ∀ n it, its[n]? = some it →
        let s := mainLoop (its.take n) (.start input changes now flagDbBackup)
        s.Enters it → it.stdin.delivers = false → isKey (s.cell it) = false := by
  constructor
  · intro hMatch n it hIt
    have hNext := hMatch (n + 1)
    rw [mainLoop_take_succ hIt, dumpsMatchKeys_iterate it (hMatch n)] at hNext
    exact hNext
  · intro hQuiet n
    induction n with
    | zero => exact dumpsMatchKeys_nil
    | succ n ih =>
        cases hIt : its[n]? with
        | none =>
            rw [List.take_add_one, hIt, Option.toList_none, List.append_nil]
            exact ih
        | some it =>
            rw [mainLoop_take_succ hIt, dumpsMatchKeys_iterate it ih]
            exact hQuiet n it hIt

/-- An iteration in which nothing but standard input asks for anything. -/
def quietIteration (stdin : Stdin) : Iteration :=
  ⟨true, 0, ⟨true, 0, false⟩, none, stdin, 0, 0, false⟩

/-- A `K` is typed and the terminal is closed. Every iteration dumps from then on. -/
theorem closedTerminal_dumps :
    let its := [.byte 0x4B, .endOfFile, .endOfFile].map quietIteration
    ¬ (∀ n, DumpsMatchKeys (mainLoop (its.take n) (.start 0 0 0 false)).log) ∧
      (mainLoop its (.start 0 0 0 false)).log =
        [.read 0x4B, .backup .console, .endOfFile, .backup .console, .endOfFile,
          .backup .console] := by
  have hLog : (mainLoop ([.byte 0x4B, .endOfFile, .endOfFile].map quietIteration)
      (.start 0 0 0 false)).log = [.read 0x4B, .backup .console, .endOfFile, .backup .console,
        .endOfFile, .backup .console] := by decide +kernel
  refine ⟨?_, hLog⟩
  intro hMatch
  have hCount := (hMatch 3).count
  rw [List.take_of_length_le (by decide), hLog] at hCount
  exact absurd hCount (by decide)

end Mosquitto
