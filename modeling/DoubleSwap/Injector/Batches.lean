import DoubleSwap.Injector.InjectKeys

/-! What a thread of the injector has asked for at each place of its loops, and
how far it is from their end. -/
namespace Injector

open CInt (toInt toInt_eq_some toInt_eq_none toInt_of_mem)

section Span

theorem span_self (start : Int) : span start start = [] := by
  rw [span, Int.sub_self]
  rfl

theorem length_span (start stop : Int) : (span start stop).length = (stop - start).toNat := by
  rw [span, List.length_map, List.length_range]

/-- Two spans that meet are one. -/
theorem span_append {start middle stop : Int} (hFirst : start ≤ middle) (hLast : middle ≤ stop) :
    span start middle ++ span middle stop = span start stop := by
  obtain ⟨a, rfl⟩ := Int.le.dest hFirst
  obtain ⟨b, rfl⟩ := Int.le.dest hLast
  have hWhole : (start + a + b - start).toNat = a + b := by omega
  have hLeft : (start + a - start).toNat = a := by omega
  have hRight : (start + a + b - (start + a)).toNat = b := by omega
  simp only [span, hWhole, hLeft, hRight, List.range_add, List.map_append, List.map_map]
  congr 1
  refine List.map_congr_left fun k _ => ?_
  rw [Function.comp_apply, Nat.cast_add, Int.add_assoc]

theorem span_succ {start stop : Int} (h : start ≤ stop) :
    span start (stop + 1) = span start stop ++ [stop] := by
  have hOne : span stop (stop + 1) = [stop] := by
    have hLength : (stop + 1 - stop).toNat = 1 := by omega
    rw [span, hLength]
    exact congrArg (fun z => [z]) (Int.add_zero stop)
  rw [← span_append h (Int.le_add_one le_rfl), hOne]

end Span

section InBatches

variable {log : List Event} {done : List Int}

theorem inBatches_nil : InBatches [] [] :=
  ⟨[], rfl, fun _ h => (List.not_mem_nil h).elim, rfl⟩

/-- One batch more. -/
theorem InBatches.append (h : InBatches log done) {batch : List Int}
    (hSize : batch.length ≤ batchSize) :
    InBatches (log ++ batchEvents batch) (done ++ batch) := by
  obtain ⟨batches, hFlatten, hSizes, hLog⟩ := h
  refine ⟨batches ++ [batch], ?_, ?_, ?_⟩
  · rw [List.flatten_append, hFlatten, List.flatten_singleton]
  · intro other hOther
    rcases List.mem_append.mp hOther with hEarlier | hLast
    · exact hSizes other hEarlier
    · rw [List.mem_singleton.mp hLast]
      exact hSize
  · rw [List.flatMap_append, hLog, List.flatMap_singleton]

theorem count_set (batch : List Int) : (batch.map Event.set).count .reply = 0 := by
  rw [List.count_eq_zero]
  intro hReply
  obtain ⟨index, _, hSet⟩ := List.mem_map.mp hReply
  cases hSet

/-- A batch has as many replies as keys. -/
theorem count_batchEvents (batch : List Int) : (batchEvents batch).count .reply = batch.length := by
  rw [batchEvents, List.count_append, count_set, List.map_const', List.count_replicate_self,
    Nat.zero_add]

/-- There are as many replies as indices. -/
theorem InBatches.replies (h : InBatches log done) : log.count .reply = done.length := by
  obtain ⟨batches, rfl, _, rfl⟩ := h
  rw [List.count_flatMap, List.length_flatten]
  congr 1
  refine List.map_congr_left fun batch _ => ?_
  exact count_batchEvents batch

end InBatches

section Range

/-- `start` and `end` of a thread, without their overflows. -/
def first (nombreDeCles : Int) (threadId : Nat) : Int := threadId * (nombreDeCles / 10)

def last (nombreDeCles : Int) (threadId : Nat) : Int :=
  if threadId = 9 then nombreDeCles else first nombreDeCles (threadId + 1)

variable {n : Int} {t : Nat}

theorem first_mono (hPos : 0 < n) {t' : Nat} (h : t ≤ t') : first n t ≤ first n t' :=
  mul_le_mul_of_nonneg_right (Int.ofNat_le.mpr h) (Int.ediv_nonneg hPos.le (by decide))

theorem first_nonneg (hPos : 0 < n) (t : Nat) : 0 ≤ first n t :=
  mul_nonneg (Int.natCast_nonneg t) (Int.ediv_nonneg hPos.le (by decide))

theorem first_le (hPos : 0 < n) (h : t < 10) : first n t ≤ 9 * (n / 10) :=
  first_mono hPos (Nat.le_of_lt_succ h)

theorem first_le_last (hPos : 0 < n) (h : t < 10) : first n t ≤ last n t := by
  rw [last]
  split_ifs with hLast
  · have hFirst := first_le hPos h
    omega
  · exact first_mono hPos (Nat.le_succ t)

theorem last_le (hPos : 0 < n) (h : t < 10) : last n t ≤ n := by
  rw [last]
  split_ifs with hLast
  · exact le_rfl
  · have hFirst := first_le hPos (show t + 1 < 10 by omega)
    omega

/-- Only the last thread comes near the end of the type. -/
theorem last_lt (hPos : 0 < n) (hInt : n < 2 ^ 31) (h : t < 9) : last n t + 100 < 2 ^ 31 := by
  rw [last, if_neg (by omega)]
  have hFirst := first_le hPos (show t + 1 < 10 by omega)
  omega

/-- The bounds of a thread do not overflow. -/
theorem bounds_eq (hPos : 0 < n) (hInt : n < 2 ^ 31) (h : t < 10) :
    bounds n t = some (first n t, last n t) := by
  have hQuotient : n.tdiv (maxThreads : Nat) = n / 10 := Int.tdiv_eq_ediv_of_nonneg hPos.le
  have hNonneg := first_nonneg hPos t
  have hFirst := first_le hPos h
  have hStart : toInt (t * (n / 10)) = some (first n t) :=
    toInt_of_mem (z := first n t) ⟨by omega, by omega⟩
  rw [bounds, hQuotient, hStart, last]
  simp only [Option.bind_eq_bind, Option.bind_some]
  by_cases hThread : t = 9
  · rw [if_pos (show t = maxThreads - 1 from hThread), if_pos hThread]
    rfl
  · rw [if_neg (show ¬ t = maxThreads - 1 from hThread), if_neg hThread]
    have hEnd : first n t + n / 10 = first n (t + 1) := by
      rw [first, first, Nat.cast_add, Nat.cast_one, Int.add_mul, Int.one_mul]
    have hNonneg' := first_nonneg hPos (t + 1)
    have hFirst' := first_le hPos (show t + 1 < 10 by omega)
    rw [hEnd, toInt_of_mem ⟨by omega, by omega⟩]
    rfl

theorem indices_eq (hPos : 0 < n) (hInt : n < 2 ^ 31) (h : t < 10) :
    indices n t = span (first n t) (last n t) := by
  rw [indices, bounds_eq hPos hInt h]

/-- The ranges of the first threads. -/
theorem flatMap_indices (hPos : 0 < n) (hInt : n < 2 ^ 31) {threads : Nat} (h : threads ≤ 9) :
    (List.range threads).flatMap (indices n) = span 0 (first n threads) := by
  induction threads with
  | zero =>
      rw [first, Nat.cast_zero, Int.zero_mul, span_self]
      rfl
  | succ threads ih =>
      rw [List.range_succ, List.flatMap_append, ih (by omega), List.flatMap_singleton,
        indices_eq hPos hInt (by omega), last, if_neg (by omega),
        span_append (first_nonneg hPos threads) (first_mono hPos (Nat.le_succ threads))]

/-- The threads share all keys among them, each key once. -/
theorem indices_partition (hPos : 0 < n) (hInt : n < 2 ^ 31) :
    (List.range maxThreads).flatMap (indices n) = span 0 n := by
  have hLast := first_le_last hPos (show 9 < 10 by decide)
  rw [List.range_succ, List.flatMap_append, flatMap_indices hPos hInt le_rfl,
    List.flatMap_singleton, indices_eq hPos hInt (by decide),
    span_append (first_nonneg hPos 9) hLast]
  rfl

/-- Their lengths add up. -/
theorem sum_ranges (n : Int) :
    ∑ t ∈ Finset.range maxThreads, (last n t - first n t) = n := by
  have hWidths : ∑ t ∈ Finset.range 9, (last n t - first n t) =
      ∑ t ∈ Finset.range 9, (first n (t + 1) - first n t) :=
    Finset.sum_congr rfl fun t ht => by
      rw [last, if_neg (Nat.ne_of_lt (Finset.mem_range.mp ht))]
  rw [Finset.sum_range_succ, hWidths, Finset.sum_range_sub, last, if_pos rfl, first, first,
    Nat.cast_zero]
  ring

end Range

/-- The indices that the loop over the batches of the last thread passes, the
last batch in full, are all of type `int`. -/
def Roomy (n : Int) : Prop :=
  9 * (n / 10) + 100 * ((n - 9 * (n / 10) + 99) / 100) < 2 ^ 31

instance (n : Int) : Decidable (Roomy n) := inferInstanceAs (Decidable (_ < _))

namespace Thread

variable (n : Int) (t : Nat) (th : Thread)

/-- The loop variable between two batches. -/
structure InLoop : Prop where
  stop : th.stop = last n t
  lower : first n t ≤ th.i
  upper : th.i < 2 ^ 31
  batch : 100 ∣ th.i - first n t

/-- The index after the batch. -/
def batchEnd : Int := min (th.i + 100) th.stop

/-- In a batch of which some indices are appended. -/
structure Appending : Prop where
  loop : th.InLoop n t
  entered : th.i < th.stop
  index : th.i + th.j ≤ th.batchEnd
  log : ∃ done, InBatches done (span (first n t) th.i) ∧
    th.log = done ++ (span th.i (th.i + th.j)).map Event.set

/-- In a batch that is appended, and of which some replies are collected. -/
structure Collecting (replies : Nat) : Prop where
  loop : th.InLoop n t
  entered : th.i < th.stop
  index : th.i + replies ≤ th.batchEnd
  log : ∃ done, InBatches done (span (first n t) th.i) ∧
    th.log = done ++ (span th.i th.batchEnd).map Event.set ++ List.replicate replies Event.reply

/-- What a thread has asked for at its place. -/
def Sound : Prop :=
  match th.pc with
  | .notCreated | .connect => th.log = []
  | .testBatch =>
      th.InLoop n t ∧ th.i < th.stop + 100 ∧ InBatches th.log (span (first n t) (min th.i th.stop))
  | .append => th.Appending n t
  | .collect => th.Collecting n t th.j
  | .lock | .load | .store | .report | .unlock => th.Collecting n t (th.j + 1)
  | .finished =>
      th.InLoop n t ∧ th.stop ≤ th.i ∧ th.i < th.stop + 100 ∧
        InBatches th.log (span (first n t) th.stop)
  | .failed => (th.log.count Event.reply : Int) ≤ last n t - first n t
  | .undefined => ¬ Roomy n ∧ (th.log.count Event.reply : Int) ≤ last n t - first n t

/-- The replies that are collected and not yet counted. -/
def pending : Nat :=
  match th.pc with
  | .lock | .load | .store => 1
  | _ => 0

/-- What the thread has added to the count. -/
def counted : Int := th.log.count Event.reply - th.pending

/-- The most steps that a thread has left. -/
def work : Nat :=
  let rest := 10 * (th.stop - (th.i + 100)).toNat
  let size := (th.batchEnd - th.i).toNat
  match th.pc with
  | .notCreated => 10 * n.toNat + 3
  | .connect => 10 * n.toNat + 2
  | .testBatch => 10 * (th.stop - th.i).toNat + 1
  | .append => rest + 3 + 6 * size + (size - th.j)
  | .collect => rest + 2 + 6 * (size - th.j)
  | .lock => rest + 2 + 6 * (size - (th.j + 1)) + 5
  | .load => rest + 2 + 6 * (size - (th.j + 1)) + 4
  | .store => rest + 2 + 6 * (size - (th.j + 1)) + 3
  | .report => rest + 2 + 6 * (size - (th.j + 1)) + 2
  | .unlock => rest + 2 + 6 * (size - (th.j + 1)) + 1
  | .finished | .failed | .undefined => 0

/-- The places at which a thread has the mutex. -/
def Holds : Prop := th.pc = .load ∨ th.pc = .store ∨ th.pc = .report ∨ th.pc = .unlock

/-- What a step of a thread does. -/
structure Moves (shared shared' : Shared) (th' : Thread) : Prop where
  sound : th'.Sound n t
  work : th'.work n < th.work n
  mutex : (shared'.mutex = shared.mutex ∧ (th'.Holds ↔ th.Holds)) ∨
    (shared.mutex = none ∧ shared'.mutex = some t ∧ th'.Holds) ∨
    (shared'.mutex = none ∧ th.Holds ∧ ¬ th'.Holds)
  total : shared'.totalInjected - th'.counted = shared.totalInjected - th.counted
  changed : shared'.totalInjected = shared.totalInjected ∨ th.Holds
  value : th'.pc = .store → th'.value = shared'.totalInjected

variable {n t th} {shared shared' : Shared} {th' : Thread}

/-- A step that does not touch what is shared. -/
theorem Moves.own (hSound : th'.Sound n t) (hWork : th'.work n < th.work n)
    (hHolds : ¬ th.Holds) (hHolds' : ¬ th'.Holds) (hCounted : th'.counted = th.counted) :
    th.Moves n t shared shared th' where
  sound := hSound
  work := hWork
  mutex := Or.inl ⟨rfl, iff_of_false hHolds' hHolds⟩
  total := by rw [hCounted]
  changed := Or.inl rfl
  value := fun hStore => (hHolds' (Or.inr (Or.inl hStore))).elim

/-- The condition of the inner loops, while their indices fit an `int`. -/
theorem inner_eq (hLow : 0 ≤ th.i) (hStop : th.stop < 2 ^ 31) (hIndex : th.i + th.j ≤ th.batchEnd) :
    th.inner = if th.i + th.j < th.batchEnd then .index (th.i + th.j) else .ended := by
  rw [batchEnd] at hIndex ⊢
  rw [inner]
  by_cases hBatch : th.j < 100
  · rw [if_pos (show th.j < batchSize from hBatch), toInt_of_mem ⟨by omega, by omega⟩]
    have hInner : th.i + th.j < min (th.i + 100) th.stop ↔ th.i + th.j < th.stop := by omega
    simp only [hInner]
  · rw [if_neg (show ¬ th.j < batchSize from hBatch), if_neg (by omega)]

/-- What holds of the outer loop does not depend on where the thread is in a batch. -/
theorem InLoop.elsewhere (h : th.InLoop n t) (pc : Pc) (j : Nat) (value : Int) (log : List Event) :
    Thread.InLoop n t { th with pc := pc, j := j, value := value, log := log } :=
  ⟨h.stop, h.lower, h.upper, h.batch⟩

section Steps

variable (hPos : 0 < n) (hInt : n < 2 ^ 31) (ht : t < 10)

include hPos hInt ht in
theorem InLoop.stop_lt (h : th.InLoop n t) : th.stop < 2 ^ 31 := by
  have hLast := last_le hPos ht
  rw [h.stop]
  omega

include hPos in
theorem InLoop.nonneg (h : th.InLoop n t) : 0 ≤ th.i := (first_nonneg hPos t).trans h.lower

include hPos hInt ht in
/-- A thread that cannot connect ends there. -/
theorem step_connect {answer : Bool} (hPc : th.pc = .connect) (hSound : th.Sound n t)
    (h : th.step n t answer shared = some (shared', th')) :
    th.Moves n t shared shared' th' := by
  have hHolds : ¬ th.Holds := by simp [Holds, hPc]
  have hFirst := first_le_last hPos ht
  have hNonneg := first_nonneg hPos t
  have hLast := last_le hPos ht
  simp only [Sound, hPc] at hSound
  simp only [step, hPc, bounds_eq hPos hInt ht] at h
  cases answer with
  | false =>
      obtain ⟨rfl, rfl⟩ := Prod.mk.inj (Option.some.inj h)
      refine Moves.own ?_ ?_ hHolds (by simp [Holds]) ?_
      · simp only [Sound, hSound, List.count_nil]
        omega
      · simp only [work, hPc]
        omega
      · simp only [counted, pending, hPc]
  | true =>
      obtain ⟨rfl, rfl⟩ := Prod.mk.inj (Option.some.inj h)
      refine Moves.own ?_ ?_ hHolds (by simp [Holds]) ?_
      · simp only [Sound, hSound, min_eq_left hFirst, span_self]
        refine ⟨⟨rfl, le_rfl, ?_, by simp⟩, by omega, inBatches_nil⟩
        show first n t < 2 ^ 31
        omega
      · simp only [work, hPc]
        omega
      · simp only [counted, pending, hPc]

omit hPos hInt ht in
/-- A batch goes on until it is full or the keys are used up. -/
theorem step_testBatch {answer : Bool} (hPc : th.pc = .testBatch) (hSound : th.Sound n t)
    (h : th.step n t answer shared = some (shared', th')) :
    th.Moves n t shared shared' th' := by
  have hHolds : ¬ th.Holds := by simp [Holds, hPc]
  simp only [Sound, hPc] at hSound
  obtain ⟨hLoop, hBound, hLog⟩ := hSound
  simp only [step, hPc] at h
  split_ifs at h with hEntered
  · obtain ⟨rfl, rfl⟩ := Prod.mk.inj (Option.some.inj h)
    rw [min_eq_left hEntered.le] at hLog
    refine Moves.own ?_ ?_ hHolds (by simp [Holds]) ?_
    · refine ⟨hLoop.elsewhere _ _ _ _, hEntered, ?_, th.log, hLog, ?_⟩
      · simp only [batchEnd]
        omega
      · rw [Nat.cast_zero, Int.add_zero, span_self]
        exact (List.append_nil _).symm
    · simp only [work, batchEnd, hPc]
      omega
    · simp only [counted, pending, hPc]
  · obtain ⟨rfl, rfl⟩ := Prod.mk.inj (Option.some.inj h)
    rw [not_lt] at hEntered
    rw [min_eq_right hEntered] at hLog
    refine Moves.own ?_ ?_ hHolds (by simp [Holds]) ?_
    · exact ⟨hLoop.elsewhere _ _ _ _, hEntered, hBound, hLog⟩
    · simp only [work, hPc]
      omega
    · simp only [counted, pending, hPc]

include hPos hInt ht in
/-- A key joins the batch. -/
theorem step_append {answer : Bool} (hPc : th.pc = .append) (hSound : th.Sound n t)
    (h : th.step n t answer shared = some (shared', th')) :
    th.Moves n t shared shared' th' := by
  have hHolds : ¬ th.Holds := by simp [Holds, hPc]
  simp only [Sound, hPc] at hSound
  obtain ⟨hLoop, hEntered, hIndex, done, hDone, hLog⟩ := hSound
  simp only [step, hPc, inner_eq (hLoop.nonneg hPos) (hLoop.stop_lt hPos hInt ht) hIndex] at h
  split_ifs at h with hMore
  · obtain ⟨rfl, rfl⟩ := Prod.mk.inj (Option.some.inj h)
    refine Moves.own ?_ ?_ hHolds (by simp [Holds]) ?_
    · simp only [Sound]
      refine ⟨hLoop.elsewhere _ _ _ _, hEntered, ?_, done, hDone, ?_⟩
      · simp only [batchEnd] at hMore ⊢
        push_cast
        omega
      · show th.log ++ [Event.set (th.i + th.j)] = _
        rw [Nat.cast_succ, ← Int.add_assoc, span_succ (by omega), List.map_append, hLog,
          List.append_assoc]
        rfl
    · simp only [work, batchEnd, hPc] at hMore ⊢
      omega
    · simp only [counted, pending, hPc, List.count_append]
      rfl
  · obtain ⟨rfl, rfl⟩ := Prod.mk.inj (Option.some.inj h)
    have hEnd : th.i + th.j = th.batchEnd := by omega
    refine Moves.own ?_ ?_ hHolds (by simp [Holds]) ?_
    · refine ⟨hLoop.elsewhere _ _ _ _, hEntered, ?_, done, hDone, ?_⟩
      · simp only [batchEnd]
        omega
      · show th.log = done ++ (span th.i th.batchEnd).map Event.set ++ []
        rw [hLog, hEnd, List.append_nil]
    · simp only [work, batchEnd, hPc]
      omega
    · simp only [counted, pending, hPc]

include hPos hInt ht in
/-- Only the last thread can come to an index that is not of type `int`. -/
theorem InLoop.not_roomy (h : th.InLoop n t) (hEntered : th.i < th.stop)
    (hOver : 2 ^ 31 ≤ th.i + 100) : ¬ Roomy n := by
  have hStop := h.stop
  have hLast : t = 9 := by
    by_contra hEarlier
    have hRoom := last_lt hPos hInt (show t < 9 by omega)
    omega
  subst hLast
  have hFirst : first n 9 = 9 * (n / 10) := rfl
  obtain ⟨batches, hBatches⟩ := h.batch
  rw [last, if_pos rfl] at hStop
  rw [Roomy]
  omega

omit hPos hInt ht in
/-- All replies of a batch are collected. -/
theorem Collecting.ended (h : th.Collecting n t th.j) (hEnd : th.i + th.j = th.batchEnd) :
    InBatches th.log (span (first n t) th.batchEnd) := by
  obtain ⟨done, hDone, hLog⟩ := h.log
  have hLength : (span th.i th.batchEnd).length = th.j := by
    rw [length_span]
    omega
  have hSize : th.j ≤ batchSize := by
    have hBatch : th.batchEnd ≤ th.i + 100 := min_le_left _ _
    show th.j ≤ 100
    omega
  have hLower := h.loop.lower
  rw [hLog, ← span_append hLower (show th.i ≤ th.batchEnd by omega), List.append_assoc]
  conv => enter [1, 2, 2]; rw [← hLength, ← List.map_const']
  exact hDone.append (hLength.trans_le hSize)

omit hPos hInt ht in
/-- The replies that were taken and those that are still due. -/
theorem Collecting.replies {replies : Nat} (h : th.Collecting n t replies) :
    (th.log.count Event.reply : Int) = th.i - first n t + replies := by
  obtain ⟨done, hDone, hLog⟩ := h.log
  have hLower := h.loop.lower
  rw [hLog, List.count_append, List.count_append, hDone.replies, count_set,
    List.count_replicate_self, length_span]
  omega

omit hPos hInt ht in
/-- A reply of the batch arrives or not. -/
theorem step_collect_reply {answer : Bool} (hPc : th.pc = .collect)
    (hCollecting : th.Collecting n t th.j) (hMore : th.i + th.j < th.batchEnd)
    (hInner : th.inner = .index (th.i + th.j))
    (h : th.step n t answer shared = some (shared', th')) :
    th.Moves n t shared shared' th' := by
  have hHolds : ¬ th.Holds := by simp [Holds, hPc]
  have hReplies := hCollecting.replies
  have hLoop := hCollecting.loop
  have hStop := hLoop.stop
  have hBatch : th.batchEnd ≤ th.stop := min_le_right _ _
  simp only [step, hPc, hInner] at h
  cases answer with
  | false =>
      obtain ⟨rfl, rfl⟩ := Prod.mk.inj (Option.some.inj h)
      refine Moves.own ?_ ?_ hHolds (by simp [Holds]) ?_
      · show (th.log.count Event.reply : Int) ≤ _
        omega
      · simp only [work, hPc]
        omega
      · simp only [counted, pending, hPc]
  | true =>
      obtain ⟨rfl, rfl⟩ := Prod.mk.inj (Option.some.inj h)
      obtain ⟨done, hDone, hLog⟩ := hCollecting.log
      refine Moves.own ?_ ?_ hHolds (by simp [Holds]) ?_
      · refine ⟨hLoop.elsewhere _ _ _ _, hCollecting.entered, ?_, done, hDone, ?_⟩
        · show th.i + (th.j + 1 : Nat) ≤ th.batchEnd
          push_cast
          omega
        · show th.log ++ [Event.reply] = _
          rw [hLog, List.append_assoc _ _ [Event.reply], List.replicate_succ']
          rfl
      · simp only [work, batchEnd, hPc] at hMore ⊢
        omega
      · simp only [counted, pending, hPc, List.count_append, List.count_singleton_self]
        push_cast
        omega

include hPos hInt ht in
/-- The next batch begins, at an index that is undefined only where the ranges
come too near the end of the type. -/
theorem step_collect_ended {answer : Bool} (hPc : th.pc = .collect)
    (hCollecting : th.Collecting n t th.j) (hEnd : th.i + th.j = th.batchEnd)
    (hInner : th.inner = .ended) (h : th.step n t answer shared = some (shared', th')) :
    th.Moves n t shared shared' th' := by
  have hHolds : ¬ th.Holds := by simp [Holds, hPc]
  have hReplies := hCollecting.replies
  have hLoop := hCollecting.loop
  have hStop := hLoop.stop
  have hEntered := hCollecting.entered
  have hBatch : th.batchEnd ≤ th.stop := min_le_right _ _
  simp only [step, hPc, hInner] at h
  cases hNext : toInt (th.i + batchSize) with
  | none =>
      rw [hNext] at h
      obtain ⟨rfl, rfl⟩ := Prod.mk.inj (Option.some.inj h)
      have hOver : ¬ (-2 ^ 31 ≤ th.i + 100 ∧ th.i + 100 < 2 ^ 31) := toInt_eq_none.mp hNext
      have hNonneg := hLoop.nonneg hPos
      refine Moves.own ?_ ?_ hHolds (by simp [Holds]) ?_
      · refine ⟨hLoop.not_roomy hPos hInt ht hEntered (by omega), ?_⟩
        show (th.log.count Event.reply : Int) ≤ _
        omega
      · simp only [work, hPc]
        omega
      · simp only [counted, pending, hPc]
  | some next =>
      rw [hNext] at h
      obtain ⟨rfl, rfl⟩ := Prod.mk.inj (Option.some.inj h)
      obtain ⟨rfl, _, hUpper⟩ := toInt_eq_some.mp hNext
      have hLower := hLoop.lower
      have hDvd := hLoop.batch
      refine Moves.own ?_ ?_ hHolds (by simp [Holds]) ?_
      · refine ⟨⟨hStop, ?_, hUpper, ?_⟩, ?_, hCollecting.ended hEnd⟩
        · show first n t ≤ th.i + 100
          omega
        · show 100 ∣ th.i + 100 - first n t
          omega
        · show th.i + 100 < th.stop + 100
          omega
      · simp only [work, hPc]
        show 10 * (th.stop - (th.i + 100)).toNat + 1 < _
        omega
      · simp only [counted, pending, hPc]

include hPos hInt ht in
/-- A reply is taken, or the thread goes on to the counter. -/
theorem step_collect {answer : Bool} (hPc : th.pc = .collect) (hSound : th.Sound n t)
    (h : th.step n t answer shared = some (shared', th')) :
    th.Moves n t shared shared' th' := by
  simp only [Sound, hPc] at hSound
  have hLoop := hSound.loop
  have hIndex := hSound.index
  have hInner := inner_eq (hLoop.nonneg hPos) (hLoop.stop_lt hPos hInt ht) hIndex
  by_cases hMore : th.i + th.j < th.batchEnd
  · rw [if_pos hMore] at hInner
    exact step_collect_reply hPc hSound hMore hInner h
  · rw [if_neg hMore] at hInner
    exact step_collect_ended hPos hInt ht hPc hSound (by omega) hInner h

omit hPos hInt ht in
/-- What is collected does not depend on where the thread is in counting it. -/
theorem Collecting.counting {replies : Nat} (h : th.Collecting n t replies) (pc : Pc) (j : Nat)
    (value : Int) : Thread.Collecting n t { th with pc := pc, j := j, value := value } replies :=
  ⟨h.loop.elsewhere pc j value th.log, h.entered, h.index, h.log⟩

omit hPos hInt ht in
theorem step_lock {answer : Bool} (hPc : th.pc = .lock) (hSound : th.Sound n t)
    (h : th.step n t answer shared = some (shared', th')) :
    th.Moves n t shared shared' th' := by
  simp only [Sound, hPc] at hSound
  simp only [step, hPc] at h
  split_ifs at h with hFree
  obtain ⟨rfl, rfl⟩ := Prod.mk.inj (Option.some.inj h)
  refine ⟨hSound.counting .load th.j th.value, ?_, ?_, ?_, Or.inl rfl, ?_⟩
  · simp only [work, batchEnd, hPc]
    omega
  · exact Or.inr (Or.inl ⟨hFree, rfl, Or.inl rfl⟩)
  · simp only [counted, pending, hPc]
  · intro hStore
    cases hStore

omit hPos hInt ht in
/-- The counter is read under the lock. -/
theorem step_load {answer : Bool} (hPc : th.pc = .load) (hSound : th.Sound n t)
    (h : th.step n t answer shared = some (shared', th')) :
    th.Moves n t shared shared' th' := by
  simp only [Sound, hPc] at hSound
  simp only [step, hPc] at h
  obtain ⟨rfl, rfl⟩ := Prod.mk.inj (Option.some.inj h)
  refine ⟨hSound.counting .store th.j shared.totalInjected, ?_, ?_, ?_, Or.inl rfl, fun _ => rfl⟩
  · simp only [work, batchEnd, hPc]
    omega
  · exact Or.inl ⟨rfl, iff_of_true (Or.inr (Or.inl rfl)) (Or.inl hPc)⟩
  · simp only [counted, pending, hPc]

omit hPos hInt ht in
/-- The count that was loaded is stored with one added. -/
theorem step_store {answer : Bool} (hPc : th.pc = .store) (hSound : th.Sound n t)
    (hValue : th.value = shared.totalInjected)
    (hRoom : -2 ^ 31 ≤ shared.totalInjected + 1 ∧ shared.totalInjected + 1 < 2 ^ 31)
    (h : th.step n t answer shared = some (shared', th')) :
    th.Moves n t shared shared' th' := by
  simp only [Sound, hPc] at hSound
  simp only [step, hPc, hValue, toInt_of_mem hRoom] at h
  obtain ⟨rfl, rfl⟩ := Prod.mk.inj (Option.some.inj h)
  have hHolds : th.Holds := Or.inr (Or.inl hPc)
  refine ⟨hSound.counting .report th.j shared.totalInjected, ?_, ?_, ?_, Or.inr hHolds, ?_⟩
  · simp only [work, batchEnd, hPc]
    omega
  · exact Or.inl ⟨rfl, iff_of_true (Or.inr (Or.inr (Or.inl rfl))) hHolds⟩
  · simp only [counted, pending, hPc]
    omega
  · intro hStore
    cases hStore

omit hPos hInt ht in
/-- The progress is reported under the lock, too. -/
theorem step_report {answer : Bool} (hPc : th.pc = .report) (hSound : th.Sound n t)
    (h : th.step n t answer shared = some (shared', th')) :
    th.Moves n t shared shared' th' := by
  have hMoves (printed : List Int) :
      th.Moves n t shared { shared with printed := printed } { th with pc := .unlock } := by
    have hHolds : th.Holds := Or.inr (Or.inr (Or.inl hPc))
    simp only [Sound, hPc] at hSound
    refine ⟨hSound.counting .unlock th.j th.value, ?_, ?_, ?_, Or.inl rfl, ?_⟩
    · simp only [work, batchEnd, hPc]
      omega
    · exact Or.inl ⟨rfl, iff_of_true (Or.inr (Or.inr (Or.inr rfl))) hHolds⟩
    · simp only [counted, pending, hPc]
    · intro hStore
      cases hStore
  simp only [step, hPc] at h
  split_ifs at h
  · obtain ⟨rfl, rfl⟩ := Prod.mk.inj (Option.some.inj h)
    exact hMoves _
  · obtain ⟨rfl, rfl⟩ := Prod.mk.inj (Option.some.inj h)
    exact hMoves shared.printed

omit hPos hInt ht in
theorem step_unlock {answer : Bool} (hPc : th.pc = .unlock) (hSound : th.Sound n t)
    (h : th.step n t answer shared = some (shared', th')) :
    th.Moves n t shared shared' th' := by
  have hHolds : th.Holds := Or.inr (Or.inr (Or.inr hPc))
  simp only [Sound, hPc] at hSound
  simp only [step, hPc] at h
  obtain ⟨rfl, rfl⟩ := Prod.mk.inj (Option.some.inj h)
  refine ⟨hSound.counting .collect (th.j + 1) th.value, ?_, ?_, ?_, Or.inl rfl, ?_⟩
  · simp only [work, batchEnd, hPc]
    omega
  · exact Or.inr (Or.inr ⟨rfl, hHolds, by simp [Holds]⟩)
  · simp only [counted, pending, hPc]
  · intro hStore
    cases hStore

include hPos hInt ht in
/-- Every step of a thread. -/
theorem step_moves {answer : Bool} (hSound : th.Sound n t)
    (hStore : th.pc = .store → th.value = shared.totalInjected ∧
      -2 ^ 31 ≤ shared.totalInjected + 1 ∧ shared.totalInjected + 1 < 2 ^ 31)
    (h : th.step n t answer shared = some (shared', th')) : th.Moves n t shared shared' th' := by
  cases hPc : th.pc with
  | notCreated | finished | failed | undefined => simp [step, hPc] at h
  | connect => exact step_connect hPos hInt ht hPc hSound h
  | testBatch => exact step_testBatch hPc hSound h
  | append => exact step_append hPos hInt ht hPc hSound h
  | collect => exact step_collect hPos hInt ht hPc hSound h
  | lock => exact step_lock hPc hSound h
  | load => exact step_load hPc hSound h
  | store => exact step_store hPc hSound (hStore hPc).1 (hStore hPc).2 h
  | report => exact step_report hPc hSound h
  | unlock => exact step_unlock hPc hSound h

include hPos ht in
/-- A thread does not collect more replies than it has indices. -/
theorem Sound.replies_le (h : th.Sound n t) :
    (th.log.count Event.reply : Int) ≤ last n t - first n t := by
  have hRange := first_le_last hPos ht
  have hLoop {replies : Nat} (hCollecting : th.Collecting n t replies) :
      (th.log.count Event.reply : Int) ≤ last n t - first n t := by
    have hIndex := hCollecting.index
    have hStop := hCollecting.loop.stop
    rw [hCollecting.replies]
    simp only [batchEnd] at hIndex
    omega
  cases hPc : th.pc <;> simp only [Sound, hPc] at h
  case notCreated | connect =>
    rw [h, List.count_nil]
    omega
  case testBatch =>
    obtain ⟨hLoop, _, hLog⟩ := h
    have hLower := hLoop.lower
    have hStop := hLoop.stop
    rw [hLog.replies, length_span]
    omega
  case append =>
    obtain ⟨hLoop, hEntered, _, done, hDone, hLog⟩ := h
    have hLower := hLoop.lower
    have hStop := hLoop.stop
    rw [hLog, List.count_append, hDone.replies, count_set, length_span]
    omega
  case collect | lock | load | store | report | unlock => exact hLoop h
  case finished =>
    obtain ⟨hLoop, _, _, hLog⟩ := h
    have hStop := hLoop.stop
    rw [hLog.replies, length_span]
    omega
  case failed => exact h
  case undefined => exact h.2

end Steps

end Thread

end Injector
