import DoubleSwap.Injector.Batches
import DoubleSwap.Transition.Mutex

/-! The interleavings of the injector's threads. What the count holds is a sum over
what the threads have collected, and at the end that is the number of keys. -/
namespace Injector

open Transition (Run Excludes sum_update)

variable {n : Int}

namespace Thread

variable {t : Nat} {th th' : Thread} {shared shared' : Shared} {answer : Bool}

/-- A thread takes steps from its creation to its exit. -/
theorem step_running (h : th.step n t answer shared = some (shared', th')) :
    th.pc ≠ .notCreated ∧ th.exited = false ∧ th'.pc ≠ .notCreated ∧
      (answer = true → th'.pc ≠ .failed) := by
  cases hPc : th.pc <;> simp only [step, hPc] at h
  case notCreated | finished | failed | undefined => cases h
  all_goals
    refine ⟨by decide, by simp [exited, hPc], ?_⟩
    grind

/-- A thread that runs can go on unless it waits for the mutex. -/
theorem step_enabled (hCreated : th.pc ≠ .notCreated) (hExited : th.exited = false)
    (hDefined : th.pc ≠ .undefined) (hFree : th.pc = .lock → shared.mutex = none) :
    (th.step n t true shared).isSome := by
  cases hPc : th.pc <;> simp only [step, hPc]
  case notCreated => exact (hCreated hPc).elim
  case undefined => exact (hDefined hPc).elim
  case finished | failed => simp [exited, hPc] at hExited
  case lock => rw [if_pos (hFree hPc), Option.isSome_some]
  case load | unlock => rfl
  all_goals grind

theorem Sound.counted_nonneg (h : th.Sound n t) : 0 ≤ th.counted := by
  have hPending (hCollecting : th.Collecting n t (th.j + 1)) : 0 ≤ th.counted := by
    have hReplies := hCollecting.replies
    have hLower := hCollecting.loop.lower
    have hOne : th.pending ≤ 1 := by
      rw [pending]
      split <;> decide
    rw [counted]
    omega
  cases hPc : th.pc <;> simp only [Sound, hPc] at h
  case lock | load | store => exact hPending h
  all_goals
    simp only [counted, pending, hPc]
    omega

end Thread

/-- How many threads `main` has created. -/
def Main.created : Main → Nat
  | .check | .rejected => 0
  | .create i => i
  | .join _ | .done => maxThreads

/-- How many threads `main` has joined. -/
def Main.joined : Main → Nat
  | .join i => i
  | .done => maxThreads
  | _ => 0

/-- The most steps that `main` has left. -/
def Main.work : Main → Nat
  | .check => 24
  | .create i => 12 + (maxThreads - i)
  | .join i => 1 + (maxThreads - i)
  | .rejected | .done => 0

namespace System

/-- What holds in every interleaving. -/
structure Sound (n : Int) (s : System) : Prop where
  threads : ∀ t < maxThreads, (s.threads t).Sound n t
  created : ∀ t, (s.threads t).pc = .notCreated ↔ s.main.created ≤ t
  created_le : s.main.created ≤ maxThreads
  joined : ∀ t < s.main.joined, (s.threads t).exited = true
  accepted : s.main ≠ .rejected
  total : s.shared.totalInjected = ∑ t ∈ Finset.range maxThreads, (s.threads t).counted
  mutex : Excludes Thread.Holds s.shared.mutex s.threads
  value : ∀ t, (s.threads t).pc = .store → (s.threads t).value = s.shared.totalInjected

/-- The most steps that are left. -/
def work (n : Int) (s : System) : Nat :=
  ∑ t ∈ Finset.range maxThreads, (s.threads t).work n + s.main.work

theorem sound_initial (n : Int) : System.initial.Sound n where
  threads := fun _ _ => rfl
  created := fun t => iff_of_true rfl (Nat.zero_le t)
  created_le := Nat.zero_le maxThreads
  joined := fun t ht => (Nat.not_lt_zero t ht).elim
  accepted := fun hRejected => by cases hRejected
  total := by decide
  mutex := fun t =>
    iff_of_false (by simp [System.initial, Thread.Holds]) fun hNone => by cases hNone
  value := fun t hStore => by cases hStore

variable {s s' : System} (hPos : 0 < n) (hInt : n < 2 ^ 31)

include hPos in
/-- A reply that is not counted yet leaves room for it. -/
theorem Sound.total_lt (h : s.Sound n) {t : Nat} (ht : t < maxThreads)
    (hStore : (s.threads t).pc = .store) :
    0 ≤ s.shared.totalInjected ∧ s.shared.totalInjected < n := by
  rw [h.total]
  constructor
  · exact Finset.sum_nonneg fun t' ht' => (h.threads t' (Finset.mem_range.mp ht')).counted_nonneg
  · rw [← sum_ranges n]
    refine Finset.sum_lt_sum ?_ ⟨t, Finset.mem_range.mpr ht, ?_⟩
    · intro t' ht'
      have hReplies := (h.threads t' (Finset.mem_range.mp ht')).replies_le hPos
        (Finset.mem_range.mp ht')
      rw [Thread.counted]
      omega
    · have hReplies := (h.threads t ht).replies_le hPos ht
      simp only [Thread.counted, Thread.pending, hStore]
      omega

/-- A step of one thread keeps what holds of the threads and of what they share. -/
theorem Sound.moved (h : s.Sound n) {t : Nat} (ht : t < maxThreads) {shared : Shared} {th : Thread}
    (hMoves : (s.threads t).Moves n t s.shared shared th) :
    (∀ t' < maxThreads, (Function.update s.threads t th t').Sound n t') ∧
      shared.totalInjected =
        ∑ t' ∈ Finset.range maxThreads, (Function.update s.threads t th t').counted ∧
      Excludes Thread.Holds shared.mutex (Function.update s.threads t th) ∧
      (∀ t', (Function.update s.threads t th t').pc = .store →
        (Function.update s.threads t th t').value = shared.totalInjected) ∧
      ∑ t' ∈ Finset.range maxThreads, (Function.update s.threads t th t').work n <
        ∑ t' ∈ Finset.range maxThreads, (s.threads t').work n := by
  have hMem : t ∈ Finset.range maxThreads := Finset.mem_range.mpr ht
  refine ⟨?_, ?_, ?_, ?_, ?_⟩
  · refine (Function.forall_update_iff s.threads
      fun t' th' => t' < maxThreads → th'.Sound n t').mpr ⟨fun _ => hMoves.sound, ?_⟩
    exact fun t' _ ht' => h.threads t' ht'
  · have hCounted := sum_update Thread.counted hMem s.threads th
    have hTotal := h.total
    have hChange := hMoves.total
    omega
  · rcases hMoves.mutex with ⟨hSame, hHolds⟩ | ⟨hFree, hTaken, hHolds⟩ | ⟨hFree, hHeld, hHolds⟩
    · rw [hSame]
      exact h.mutex.keep hHolds
    · rw [hTaken]
      exact Excludes.acquire (hFree ▸ h.mutex) hHolds
    · rw [hFree]
      exact h.mutex.release hHeld hHolds
  · refine (Function.forall_update_iff s.threads
      fun _ th' => th'.pc = .store → th'.value = shared.totalInjected).mpr ⟨hMoves.value, ?_⟩
    -- The count changes only under the mutex, which no other thread at its store holds.
    intro t' hOther hStore
    rcases hMoves.changed with hSame | hHolds
    · rw [hSame]
      exact h.value t' hStore
    · exact (hOther (h.mutex.unique (Or.inr (Or.inl hStore)) hHolds)).elim
  · have hWork := sum_update (Thread.work n) hMem s.threads th
    have hLess := hMoves.work
    omega

include hPos hInt in
theorem Sound.stepThread (h : s.Sound n) {t : Nat} {answer : Bool} {shared : Shared} {th : Thread}
    (hStep : (s.threads t).step n t answer s.shared = some (shared, th)) :
    let s' := { s with shared := shared, threads := Function.update s.threads t th }
    s'.Sound n ∧ s'.work n < s.work n := by
  obtain ⟨hCreated, hExited, hCreated', _⟩ := Thread.step_running hStep
  have ht : t < maxThreads := by
    have hMain := (h.created t).not.mp hCreated
    have hMost := h.created_le
    omega
  have hMoves := Thread.step_moves hPos hInt ht (h.threads t ht) (fun hStore => by
    obtain ⟨hLow, hHigh⟩ := h.total_lt hPos ht hStore
    exact ⟨h.value t hStore, by omega, by omega⟩) hStep
  obtain ⟨hThreads, hTotal, hMutex, hValue, hWork⟩ := h.moved ht hMoves
  refine ⟨⟨hThreads, ?_, h.created_le, ?_, h.accepted, hTotal, hMutex, hValue⟩, ?_⟩
  · refine (Function.forall_update_iff s.threads
      fun t' th' => th'.pc = .notCreated ↔ s.main.created ≤ t').mpr ⟨?_, ?_⟩
    · exact iff_of_false hCreated' ((h.created t).not.mp hCreated)
    · exact fun t' _ => h.created t'
  · refine (Function.forall_update_iff s.threads
      fun t' th' => t' < s.main.joined → th'.exited = true).mpr ⟨?_, ?_⟩
    · intro hJoined
      rw [h.joined t hJoined] at hExited
      cases hExited
    · exact fun t' _ ht' => h.joined t' ht'
  · exact Nat.add_lt_add_right hWork s.main.work

/-- `main` only starts threads. -/
theorem stepMain_threads (hStep : s.stepMain n = some s') (t : Nat) :
    s'.threads t = s.threads t ∨ (s'.threads t).pc = .connect := by
  cases hMain : s.main <;> simp only [System.stepMain, hMain] at hStep
  case rejected | done => cases hStep
  case check | join =>
    left
    split_ifs at hStep <;> rw [← Option.some.inj hStep]
  case create i =>
    split_ifs at hStep
    · rw [← Option.some.inj hStep]
      by_cases hThread : t = i
      · right
        simp only [hThread, Function.update_self]
      · left
        simp only [Function.update_of_ne hThread]
    · left
      rw [← Option.some.inj hStep]

/-- A thread that is created starts with an empty log. -/
theorem Sound.createThread (h : s.Sound n) {i : Nat} (hMain : s.main = .create i)
    (hMore : i < maxThreads) :
    let s' := { s with
      main := .create (i + 1)
      threads := Function.update s.threads i { s.threads i with pc := .connect } }
    s'.Sound n ∧ s'.work n < s.work n := by
  have hCreated := h.created
  rw [hMain] at hCreated
  have hNew : (s.threads i).pc = .notCreated := (hCreated i).mpr le_rfl
  have hLog : (s.threads i).log = [] := by
    have hSound := h.threads i hMore
    simpa only [Thread.Sound, hNew] using hSound
  have hMoves : (s.threads i).Moves n i s.shared s.shared { s.threads i with pc := .connect } := by
    refine Thread.Moves.own hLog ?_ (by simp [Thread.Holds, hNew]) (by simp [Thread.Holds]) ?_
    · simp only [Thread.work, hNew]
      omega
    · simp only [Thread.counted, Thread.pending, hNew]
  obtain ⟨hThreads, hTotal, hMutex, hValue, hWork⟩ := h.moved hMore hMoves
  refine ⟨⟨hThreads, ?_, hMore, ?_, ?_, hTotal, hMutex, hValue⟩, ?_⟩
  · refine (Function.forall_update_iff s.threads
      fun t th => th.pc = .notCreated ↔ i + 1 ≤ t).mpr ⟨?_, ?_⟩
    · exact iff_of_false (fun hNever => by cases hNever) (Nat.not_succ_le_self i)
    · intro t hOther
      rw [hCreated t]
      show i ≤ t ↔ i + 1 ≤ t
      omega
  · exact fun t ht => (Nat.not_lt_zero t ht).elim
  · exact fun hRejected => by cases hRejected
  · rw [work, work, hMain]
    refine Nat.add_lt_add_of_lt_of_le hWork ?_
    show 12 + (maxThreads - (i + 1)) ≤ 12 + (maxThreads - i)
    omega

include hPos in
theorem Sound.stepMain (h : s.Sound n) (hStep : s.stepMain n = some s') :
    s'.Sound n ∧ s'.work n < s.work n := by
  cases hMain : s.main with
  | rejected => exact (h.accepted hMain).elim
  | done => simp [System.stepMain, hMain] at hStep
  | check =>
      simp only [System.stepMain, hMain, if_neg (not_le.mpr hPos)] at hStep
      obtain rfl := Option.some.inj hStep
      have hCreated := h.created
      rw [hMain] at hCreated
      refine ⟨⟨h.threads, hCreated, Nat.zero_le _, ?_, ?_, h.total, h.mutex, h.value⟩, ?_⟩
      · exact fun t ht => (Nat.not_lt_zero t ht).elim
      · exact fun hRejected => by cases hRejected
      · rw [work, work, hMain]
        exact Nat.add_lt_add_left (show (Main.create 0).work < Main.check.work by decide) _
  | create i =>
      simp only [System.stepMain, hMain] at hStep
      have hCreated := h.created
      have hMost := h.created_le
      rw [hMain] at hCreated hMost
      change i ≤ maxThreads at hMost
      split_ifs at hStep with hMore
      · obtain rfl := Option.some.inj hStep
        exact h.createThread hMain hMore
      · obtain rfl := Option.some.inj hStep
        obtain rfl : i = maxThreads := by omega
        refine ⟨⟨h.threads, hCreated, le_rfl, ?_, ?_, h.total, h.mutex, h.value⟩, ?_⟩
        · exact fun t ht => (Nat.not_lt_zero t ht).elim
        · exact fun hRejected => by cases hRejected
        · rw [work, work, hMain]
          exact Nat.add_lt_add_left
            (show (Main.join 0).work < (Main.create maxThreads).work by decide) _
  | join i =>
      simp only [System.stepMain, hMain] at hStep
      have hCreated := h.created
      have hJoined := h.joined
      rw [hMain] at hCreated hJoined
      split_ifs at hStep with hMore hExited
      · obtain rfl := Option.some.inj hStep
        refine ⟨⟨h.threads, hCreated, le_rfl, ?_, ?_, h.total, h.mutex, h.value⟩, ?_⟩
        · intro t ht
          rcases Nat.lt_succ_iff_lt_or_eq.mp ht with hEarlier | rfl
          · exact hJoined t hEarlier
          · exact hExited
        · exact fun hRejected => by cases hRejected
        · rw [work, work, hMain]
          refine Nat.add_lt_add_left ?_ _
          show 1 + (maxThreads - (i + 1)) < 1 + (maxThreads - i)
          omega
      · obtain rfl := Option.some.inj hStep
        refine ⟨⟨h.threads, hCreated, le_rfl, ?_, ?_, h.total, h.mutex, h.value⟩, ?_⟩
        · exact fun t ht => hJoined t (Nat.lt_of_lt_of_le ht (not_lt.mp hMore))
        · exact fun hRejected => by cases hRejected
        · rw [work, work, hMain]
          exact Nat.add_lt_add_left (Nat.add_pos_left Nat.one_pos _) _

include hPos hInt in
theorem Sound.step (h : s.Sound n) {actor : Actor} (hStep : s.step n actor = some s') :
    s'.Sound n ∧ s'.work n < s.work n := by
  cases actor with
  | main => exact h.stepMain hPos hStep
  | thread t answer =>
      rw [System.step] at hStep
      split at hStep
      · cases hStep
      · next hThread =>
          obtain rfl := Option.some.inj hStep
          exact h.stepThread hPos hInt hThread

/-- Whoever has the mutex can go on, and so can whoever waits for it when it is free. -/
theorem Sound.progress (h : s.Sound n) (hDefined : ∀ t, (s.threads t).pc ≠ .undefined) :
    s.main = .done ∨ ∃ actor s', actor.answered ∧ s.step n actor = some s' := by
  have hThread {t : Nat} (hCreated : (s.threads t).pc ≠ .notCreated)
      (hExited : (s.threads t).exited = false)
      (hFree : (s.threads t).pc = .lock → s.shared.mutex = none) :
      ∃ actor s', Actor.answered actor ∧ s.step n actor = some s' := by
    obtain ⟨⟨shared, th⟩, hStep⟩ := Option.isSome_iff_exists.mp
      (Thread.step_enabled (n := n) (t := t) hCreated hExited (hDefined t) hFree)
    refine ⟨.thread t true, { s with shared := shared, threads := Function.update s.threads t th },
      rfl, ?_⟩
    rw [System.step, hStep]
  cases hMain : s.main with
  | rejected => exact (h.accepted hMain).elim
  | done => exact Or.inl rfl
  | check =>
      refine Or.inr ⟨.main, ?_⟩
      simp only [System.step, System.stepMain, hMain]
      split_ifs <;> exact ⟨_, rfl, rfl⟩
  | create i =>
      refine Or.inr ⟨.main, ?_⟩
      simp only [System.step, System.stepMain, hMain]
      split_ifs <;> exact ⟨_, rfl, rfl⟩
  | join i =>
      have hCreated := h.created
      rw [hMain] at hCreated
      right
      by_cases hMore : i < maxThreads
      · cases hExited : (s.threads i).exited with
        | true =>
            refine ⟨.main, { s with main := .join (i + 1) }, rfl, ?_⟩
            simp only [System.step, System.stepMain, hMain, if_pos hMore, hExited, if_true]
        | false =>
            have hRuns : (s.threads i).pc ≠ .notCreated := (hCreated i).not.mpr (not_le.mpr hMore)
            cases hMutex : s.shared.mutex with
            | none => exact hThread hRuns hExited fun _ => hMutex
            | some holder =>
                have hHolds := (h.mutex holder).mpr hMutex
                refine hThread (t := holder) ?_ ?_ ?_
                · rcases hHolds with hPc | hPc | hPc | hPc <;> simp [hPc]
                · rcases hHolds with hPc | hPc | hPc | hPc <;> simp [Thread.exited, hPc]
                · rcases hHolds with hPc | hPc | hPc | hPc <;> simp [hPc]
      · refine ⟨.main, { s with main := .done }, rfl, ?_⟩
        simp only [System.step, System.stepMain, hMain, if_neg hMore]

/-- What a thread has counted when it is finished. -/
theorem Sound.finished (h : s.Sound n) {t : Nat} (ht : t < maxThreads)
    (hFinished : (s.threads t).pc = .finished) :
    InBatches (s.threads t).log (span (first n t) (last n t)) := by
  have hSound := h.threads t ht
  simp only [Thread.Sound, hFinished] at hSound
  obtain ⟨hLoop, _, _, hLog⟩ := hSound
  rw [hLoop.stop] at hLog
  exact hLog

include hPos in
theorem Sound.total_of_finished (h : s.Sound n)
    (hFinished : ∀ t < maxThreads, (s.threads t).pc = .finished) :
    s.shared.totalInjected = n := by
  rw [h.total, ← sum_ranges n]
  refine Finset.sum_congr rfl fun t ht => ?_
  have hThread := Finset.mem_range.mp ht
  have hRange := first_le_last hPos hThread
  simp only [Thread.counted, Thread.pending, hFinished t hThread,
    (h.finished hThread (hFinished t hThread)).replies, length_span]
  omega

end System

section Runs

variable (hPos : 0 < n) (hInt : n < 2 ^ 31) {actors : List Actor} {s : System}

include hPos hInt in
theorem Reaches.sound (h : Reaches n actors s) : s.Sound n :=
  Run.invariant h (System.sound_initial n) fun _ _ _ hSound hStep =>
    (hSound.step hPos hInt hStep).1

/-- Where all replies arrive, no thread fails. -/
theorem Reaches.not_failed (h : Reaches n actors s) (hAnswered : ∀ actor ∈ actors, actor.answered) :
    ∀ t, (s.threads t).pc ≠ .failed := by
  induction h with
  | nil => exact fun t hFailed => by cases hFailed
  | @concat actors s s' actor prior last ih =>
      have hBefore := ih fun other hOther => hAnswered other (List.mem_append_left _ hOther)
      have hAnswer := hAnswered actor (List.mem_append_right _ (List.mem_singleton_self actor))
      intro t
      cases actor with
      | main =>
          rcases System.stepMain_threads last t with hSame | hConnect
          · rw [hSame]
            exact hBefore t
          · rw [hConnect]
            decide
      | thread t' answer =>
          simp only [System.step] at last
          split at last
          · cases last
          · next hThread =>
              obtain rfl := Option.some.inj last
              exact (Function.forall_update_iff s.threads fun _ th => th.pc ≠ .failed).mpr
                ⟨(Thread.step_running hThread).2.2.2 hAnswer, fun t' _ => hBefore t'⟩ t

/-- The relation of the runs in which all replies arrive. -/
def AnsweredStep (n : Int) (s : System) (actor : Actor) (s' : System) : Prop :=
  actor.answered ∧ s.step n actor = some s'

theorem reaches_of_answered (h : Run (AnsweredStep n) System.initial actors s) :
    Reaches n actors s ∧ ∀ actor ∈ actors, actor.answered := by
  induction h with
  | nil => exact ⟨Run.nil, fun _ hNone => (List.not_mem_nil hNone).elim⟩
  | concat prior last ih =>
      refine ⟨Run.concat ih.1 last.2, ?_⟩
      intro actor hActor
      rcases List.mem_append.mp hActor with hEarlier | hLast
      · exact ih.2 actor hEarlier
      · rw [List.mem_singleton.mp hLast]
        exact last.1

include hPos hInt in
/-- A last thread that comes to its end has passed indices of type `int` only. -/
theorem roomy_of_insertsExactly (h : InsertsExactly n) : Roomy n := by
  obtain ⟨actors, s, hRun, hStuck⟩ := Run.exists_stuck (System.work n)
    (System.sound_initial n)
    (fun _ _ _ hSound (hStep : AnsweredStep n _ _ _) => hSound.step hPos hInt hStep.2) Run.nil
  obtain ⟨hReaches, hAnswered⟩ := reaches_of_answered hRun
  have hDone : s.main = .done := by
    rcases h.progress actors s hReaches with hDone | ⟨actor, s', hAnswer, hStep⟩
    · exact hDone
    · exact (hStuck actor s' ⟨hAnswer, hStep⟩).elim
  have hFinished := (h.total actors s hReaches hAnswered hDone).1 9 (by decide)
  have hSound := (hReaches.sound hPos hInt).threads 9 (by decide)
  simp only [Thread.Sound, hFinished] at hSound
  obtain ⟨hLoop, hEnd, _, _⟩ := hSound
  have hFirst : first n 9 = 9 * (n / 10) := rfl
  have hStop : (s.threads 9).stop = n := hLoop.stop
  have hUpper := hLoop.upper
  obtain ⟨batches, hBatches⟩ := hLoop.batch
  rw [Roomy]
  omega

include hPos hInt in
theorem Reaches.defined (h : Reaches n actors s) (hRoomy : Roomy n) (t : Nat) :
    (s.threads t).pc ≠ .undefined := by
  intro hUndefined
  have hSound := h.sound hPos hInt
  have ht : t < maxThreads := by
    have hCreated := (hSound.created t).not.mp (by rw [hUndefined]; decide)
    have hMost := hSound.created_le
    omega
  have hThread := hSound.threads t ht
  simp only [Thread.Sound, hUndefined] at hThread
  exact hThread.1 hRoomy

/-- The injector inserts exactly the keys that it is asked for if and only if the
last thread has room for its last batch. -/
theorem injector_inserts_iff (n : Int) (hPos : 0 < n) (hInt : n < 2 ^ 31) :
    InsertsExactly n ↔ Roomy n := by
  refine ⟨roomy_of_insertsExactly hPos hInt, fun hRoomy => ?_⟩
  constructor
  case terminates =>
    refine ⟨System.initial.work n, fun actors s hReaches => ?_⟩
    have hLength := (Run.length_le (System.work n) (System.sound_initial n)
      (fun _ _ _ hSound hStep => hSound.step hPos hInt hStep) hReaches).2
    omega
  case progress =>
    intro actors s hReaches
    exact (hReaches.sound hPos hInt).progress (hReaches.defined hPos hInt hRoomy)
  case defined => exact fun actors s hReaches t => hReaches.defined hPos hInt hRoomy t
  case partition => exact indices_partition hPos hInt
  case commands =>
    intro actors s hReaches t hFinished
    have hSound := hReaches.sound hPos hInt
    have ht : t < maxThreads := by
      have hCreated := (hSound.created t).not.mp (by rw [hFinished]; decide)
      have hMost := hSound.created_le
      omega
    rw [indices_eq hPos hInt ht]
    exact hSound.finished ht hFinished
  case total =>
    intro actors s hReaches hAnswered hDone
    have hSound := hReaches.sound hPos hInt
    have hFinished : ∀ t < maxThreads, (s.threads t).pc = .finished := by
      intro t ht
      have hJoined := hSound.joined t (by rw [hDone]; exact ht)
      have hNotFailed := hReaches.not_failed hAnswered t
      simpa [Thread.exited, hNotFailed] using hJoined
    exact ⟨hFinished, hSound.total_of_finished hPos hFinished⟩

end Runs

theorem raggedCount_inserted : InsertsExactly 1005 :=
  (injector_inserts_iff 1005 (by decide) (by decide)).mpr (by decide)

/-- The last thread would come to the index 2147483676. -/
theorem largestCount_not_inserted : ¬ InsertsExactly 2147483647 := fun h =>
  absurd (roomy_of_insertsExactly (by decide) (by decide) h) (by decide)

end Injector
