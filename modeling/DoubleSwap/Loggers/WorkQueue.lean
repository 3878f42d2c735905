import DoubleSwap.Loggers.Clock
import DoubleSwap.Transition.Deferred

/-! The kernel loggers. A swap event only queues a work item; the work function
reads the clock and appends the record when the item is executed. -/
namespace Loggers

open Text Transition

/-- The part of a rendered text that fits into a buffer with its terminator. -/
def snprintf (size : Nat) (s : Text) : Text := s.take (size - 1)

/-- A `log_work_data` together with its work function. -/
inductive LogWork where
  /-- `log_swap_out_work_func` of the host. -/
  | swapOut (pageAddr : Nat) (processName time : Text)
  /-- `log_swap_in_work_func` of the host. -/
  | swapIn (pageAddr : Nat) (processName time : Text) (isCache : Bool)
  /-- `log_swap_in_wp_work_func` of the host. -/
  | swapInWp (pageAddr : Nat) (processName time : Text)
  /-- `log_swap_out_work_func` of the guest. -/
  | guestSwapOut (pageAddr : Nat) (up : Bool)
  deriving DecidableEq, Repr

/-- The files that the work functions append to, all under `/usr/data`. -/
inductive LogFile where
  | data | dataIn | hostData | guestData
  deriving DecidableEq, Repr

def LogWork.file : LogWork → LogFile
  | .swapOut .. => .data
  | .swapIn .. => .dataIn
  | .swapInWp .. => .hostData
  | .guestSwapOut .. => .guestData

def LogWork.pageAddr : LogWork → Nat
  | .swapOut pageAddr .. => pageAddr
  | .swapIn pageAddr .. => pageAddr
  | .swapInWp pageAddr .. => pageAddr
  | .guestSwapOut pageAddr _ => pageAddr

def LogWork.tag : LogWork → Text
  | .swapOut .. => "OUT H NONE".toList
  | .swapIn _ _ _ isCache => if isCache then "IN H CACHE".toList else "IN H NONE".toList
  | .swapInWp .. => "IN H WP".toList
  | .guestSwapOut _ up => if up then "OUT G* NONE".toList else "OUT G NONE".toList

/-- `"%lu %s %02lu:%02lu:%09lu %s %s\n"`. -/
def hostLine (pageAddr : Nat) (tag : Text) (ts : Timespec) (processName time : Text) : Text :=
  decimal pageAddr ++ ' ' :: (tag ++ ' ' :: (stamp ts ++ ' ' :: (processName ++ ' ' ::
    (time ++ ['\n']))))

/-- `"%lu %s %02lu:%02lu:%09lu\n"`. -/
def guestLine (pageAddr : Nat) (tag : Text) (ts : Timespec) : Text :=
  decimal pageAddr ++ ' ' :: (tag ++ ' ' :: (stamp ts ++ ['\n']))

/-- The record that the work function writes when it reads `ts` from the clock. -/
def LogWork.line (work : LogWork) (ts : Timespec) : Text :=
  match work with
  | .swapOut pageAddr processName time =>
      snprintf 256 (hostLine pageAddr work.tag ts processName time)
  | .swapIn pageAddr processName time _ =>
      snprintf 256 (hostLine pageAddr work.tag ts processName time)
  | .swapInWp pageAddr processName time =>
      snprintf 256 (hostLine pageAddr work.tag ts processName time)
  | .guestSwapOut pageAddr _ => snprintf 256 (guestLine pageAddr work.tag ts)

/-- What `pageout` finds out about the folio, in the order of its tests. -/
structure PageoutFolio where
  /-- `is_page_cache_freeable`. -/
  freeable : Bool
  hasMapping : Bool
  /-- `folio_test_private`, and then `try_to_free_buffers`. -/
  buffersFreed : Bool
  hasWritepage : Bool
  /-- `folio_clear_dirty_for_io`. -/
  dirtyForIo : Bool
  /-- `writepage` returned `AOP_WRITEPAGE_ACTIVATE`. -/
  activates : Bool
  deriving DecidableEq, Repr

inductive PageoutT where
  | keep | activate | success | clean
  deriving DecidableEq, Repr

/-- `pageout` for the folio of frame `pfn`: the result and the queued work. -/
def pageout (folio : PageoutFolio) (pfn : Nat) : PageoutT × List LogWork :=
  let entered := [LogWork.guestSwapOut pfn true]
  if !folio.freeable then (.keep, entered)
  else if !folio.hasMapping then
    if folio.buffersFreed then (.clean, entered) else (.keep, entered)
  else if !folio.hasWritepage then (.activate, entered)
  else if folio.dirtyForIo then
    if folio.activates then (.activate, entered)
    else (.success, entered ++ [LogWork.guestSwapOut pfn false])
  else (.clean, entered)

theorem Timespec.instant_injective : Function.Injective Timespec.instant := by
  intro first second h
  have hFirst := first.nsec_lt
  have hSecond := second.nsec_lt
  simp only [Timespec.instant] at h
  have hSec : first.tvSec = second.tvSec := by omega
  have hNsec : first.tvNsec = second.tvNsec := by omega
  cases first
  cases second
  simp_all

instance : PartialOrder Timespec := PartialOrder.lift Timespec.instant Timespec.instant_injective

instance : DecidableLE Timespec := fun first second =>
  inferInstanceAs (Decidable (first.instant ≤ second.instant))

/-- The work queue when tracing starts. -/
def idle (now : Timespec) : Pool LogWork Timespec := ⟨now, 0, [], []⟩

/-- The records of one log, in the order in which they are appended. -/
def recordsOf (file : LogFile) (queue : Pool LogWork Timespec) : List Text :=
  (queue.performed.filter fun r => r.item.file = file).map fun r => r.item.line r.time

/-- In every run, whatever tells the pages apart, the stamps of each page are
in the order of its events exactly when the work of an event that has been
overtaken by later events of the page is always executed at the instant at
which theirs was. -/
theorem stamps_in_order_iff {π : Type} (page : LogWork → π) {now : Timespec}
    {actions : List (Action LogWork Timespec)} {queue : Pool LogWork Timespec}
    (run : Run Pool.Step (idle now) actions queue) :
    queue.InOrder page ↔
      Run (fun s action t => Pool.Step s action t ∧ s.Prompt page action) (idle now) actions
        queue :=
  Pool.inOrder_iff_prompt run rfl

/-- In particular they are in order if the work for each page is executed in the
order in which it was queued. -/
theorem inOrder_of_queued_order {π : Type} (page : LogWork → π) {now : Timespec}
    {actions : List (Action LogWork Timespec)} {queue : Pool LogWork Timespec}
    (run : Run (fun s action t => Pool.Step s action t ∧ s.InTurn page action) (idle now) actions
      queue) : queue.InOrder page :=
  Pool.inOrder_of_inTurn run rfl

/-- A dirty folio that is written out. -/
def dirtyFolio : PageoutFolio := ⟨true, true, false, true, true, false⟩

def firstInstant : Timespec := ⟨1700000000, 10, by decide⟩

def secondInstant : Timespec := ⟨1700000000, 20, by decide⟩

theorem firstInstant_le : firstInstant ≤ secondInstant := by
  change firstInstant.instant ≤ secondInstant.instant
  decide

def startWork : LogWork := .guestSwapOut 5 true

def endWork : LogWork := .guestSwapOut 5 false

/-- The queue after the pageout of frame 5. -/
def queuedPageout : Pool LogWork Timespec := ⟨firstInstant, 2, [(0, startWork), (1, endWork)], []⟩

/-- The work of the pageout, executed as it was queued. -/
def inTurn : Pool LogWork Timespec :=
  ⟨secondInstant, 2, [], [⟨0, startWork, firstInstant⟩, ⟨1, endWork, secondInstant⟩]⟩

def inTurnActions : List (Action LogWork Timespec) :=
  (pageout dirtyFolio 5).2.map Action.issue ++
    [.perform 0 startWork, .advance secondInstant, .perform 1 endWork]

theorem run_inTurn :
    Run (fun s action t => Pool.Step s action t ∧ s.Prompt LogWork.pageAddr action)
      (idle firstInstant) inTurnActions inTurn := by
  let PromptStep (s : Pool LogWork Timespec) (action : Action LogWork Timespec)
      (t : Pool LogWork Timespec) : Prop := Pool.Step s action t ∧ s.Prompt LogWork.pageAddr action
  have hStart : PromptStep (idle firstInstant) (.issue startWork) _ :=
    ⟨Pool.Step.issue _ _, trivial⟩
  have hEnd : PromptStep ⟨firstInstant, 1, [(0, startWork)], []⟩ (.issue endWork) queuedPageout :=
    ⟨Pool.Step.issue _ _, trivial⟩
  have hFirst : PromptStep queuedPageout (.perform 0 startWork)
      ⟨firstInstant, 2, [(1, endWork)], [⟨0, startWork, firstInstant⟩]⟩ := by
    refine ⟨Pool.Step.perform _ (show _ = [] ++ (0, startWork) :: [(1, endWork)] from rfl), ?_⟩
    intro y hy
    cases hy
  have hTick : PromptStep ⟨firstInstant, 2, [(1, endWork)], [⟨0, startWork, firstInstant⟩]⟩
      (.advance secondInstant)
      ⟨secondInstant, 2, [(1, endWork)], [⟨0, startWork, firstInstant⟩]⟩ :=
    ⟨Pool.Step.advance _ firstInstant_le, trivial⟩
  have hSecond : PromptStep ⟨secondInstant, 2, [(1, endWork)], [⟨0, startWork, firstInstant⟩]⟩
      (.perform 1 endWork) inTurn := by
    refine ⟨Pool.Step.perform _ (show _ = [] ++ (1, endWork) :: [] from rfl), ?_⟩
    intro y hy _ hTicket
    rw [List.mem_singleton.mp hy] at hTicket
    exact absurd hTicket (by decide)
  have hRun := ((((Run.nil.concat hStart).concat hEnd).concat hFirst).concat hTick).concat hSecond
  exact hRun

theorem inTurn_inOrder : inTurn.InOrder LogWork.pageAddr :=
  (stamps_in_order_iff LogWork.pageAddr (run_inTurn.mono fun _ _ _ h => h.1)).mpr run_inTurn

/-- The same work with the end of the pageout executed first and its start ten
nanoseconds later. -/
def overtaken : Pool LogWork Timespec :=
  ⟨secondInstant, 2, [], [⟨1, endWork, firstInstant⟩, ⟨0, startWork, secondInstant⟩]⟩

def overtakenActions : List (Action LogWork Timespec) :=
  (pageout dirtyFolio 5).2.map Action.issue ++
    [.perform 1 endWork, .advance secondInstant, .perform 0 startWork]

theorem run_overtaken : Run Pool.Step (idle firstInstant) overtakenActions overtaken := by
  have hStart : Pool.Step (idle firstInstant) (.issue startWork) _ := Pool.Step.issue _ _
  have hEnd : Pool.Step ⟨firstInstant, 1, [(0, startWork)], []⟩ (.issue endWork) queuedPageout :=
    Pool.Step.issue _ _
  have hSecond : Pool.Step queuedPageout (.perform 1 endWork)
      ⟨firstInstant, 2, [(0, startWork)], [⟨1, endWork, firstInstant⟩]⟩ :=
    Pool.Step.perform _ (show _ = [(0, startWork)] ++ (1, endWork) :: [] from rfl)
  have hTick : Pool.Step ⟨firstInstant, 2, [(0, startWork)], [⟨1, endWork, firstInstant⟩]⟩
      (.advance secondInstant)
      ⟨secondInstant, 2, [(0, startWork)], [⟨1, endWork, firstInstant⟩]⟩ :=
    Pool.Step.advance _ firstInstant_le
  have hFirst : Pool.Step ⟨secondInstant, 2, [(0, startWork)], [⟨1, endWork, firstInstant⟩]⟩
      (.perform 0 startWork) overtaken :=
    Pool.Step.perform _ (show _ = [] ++ (0, startWork) :: [] from rfl)
  have hRun := ((((Run.nil.concat hStart).concat hEnd).concat hSecond).concat hTick).concat hFirst
  exact hRun

/-- The end of the pageout is stamped before its start. -/
theorem overtaken_out_of_order :
    Run Pool.Step (idle firstInstant) overtakenActions overtaken ∧
      ¬ overtaken.InOrder LogWork.pageAddr ∧
      recordsOf .guestData overtaken =
        ["5 OUT G NONE 22:13:000000010\n".toList, "5 OUT G* NONE 22:13:000000020\n".toList] := by
  refine ⟨run_overtaken, ?_, by decide +kernel⟩
  intro hOrder
  have hStamps : secondInstant ≤ firstInstant :=
    hOrder ⟨0, startWork, secondInstant⟩ (by simp [overtaken])
      ⟨1, endWork, firstInstant⟩ (by simp [overtaken]) rfl Nat.zero_lt_one
  exact absurd hStamps (by decide)

end Loggers
