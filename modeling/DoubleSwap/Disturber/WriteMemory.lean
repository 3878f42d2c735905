import DoubleSwap.Data.Strides

/-! The memory disturber: `write_memory` and the chunks that `main` gives to its
threads. Sizes are of type `size_t`, and the index of the loop may wrap around. -/
namespace Disturber

open Strides (Visits exists_visit_in_window part_unique)

/-- An object in the address space. -/
structure Buffer where
  address : Nat
  size : Nat
  fits : address + size ≤ 2 ^ 64

structure ThreadData where
  start : Nat
  size : Nat
  deriving DecidableEq, Repr

/-- The loop of `write_memory`: the offsets that are written from `i` on. -/
def writeLoop (pageSize size : Nat) : Nat → Nat → List Nat
  | 0, _ => []
  | fuel + 1, i =>
      if i < size then i :: writeLoop pageSize size fuel ((i + pageSize) % 2 ^ 64) else []

/-- `write_memory`: the addresses that are written. -/
def writeMemory (pageSize fuel : Nat) (data : ThreadData) : List Nat :=
  (writeLoop pageSize data.size fuel 0).map fun i => data.start + i

/-- The chunk of thread `i`. No product exceeds the size of the buffer. -/
def threadData (memory : Buffer) (numThreads i : Nat) : ThreadData :=
  let chunkSize := memory.size / numThreads
  { start := memory.address + i * chunkSize
    size := if i = numThreads - 1 then memory.size - i * chunkSize else chunkSize }

/-- Thread `i` of `numThreads` writes the byte at the address. -/
def Writes (memory : Buffer) (numThreads pageSize i address : Nat) : Prop :=
  i < numThreads ∧ ∃ fuel, address ∈ writeMemory pageSize fuel (threadData memory numThreads i)

section Loop

variable {pageSize size : Nat}

theorem lt_of_mem_writeLoop {fuel i offset : Nat} (h : offset ∈ writeLoop pageSize size fuel i) :
    offset < size := by
  induction fuel generalizing i with
  | zero => exact (List.not_mem_nil h).elim
  | succ fuel ih =>
      rw [writeLoop] at h
      split_ifs at h with hMore
      · rcases List.mem_cons.mp h with rfl | hLater
        · exact hMore
        · exact ih hLater
      · exact (List.not_mem_nil h).elim

/-- The multiples of the page size come before the index can wrap around. -/
theorem mem_writeLoop (hSize : size ≤ 2 ^ 64) {i j : Nat} (h : i + j * pageSize < size) :
    i + j * pageSize ∈ writeLoop pageSize size (j + 1) i := by
  induction j generalizing i with
  | zero =>
      rw [Nat.zero_mul, Nat.add_zero] at h ⊢
      rw [writeLoop, if_pos h]
      exact List.mem_cons_self
  | succ j ih =>
      rw [Nat.succ_mul] at h ⊢
      have hNext : (i + pageSize) % 2 ^ 64 = i + pageSize := Nat.mod_eq_of_lt (by omega)
      have hLater : i + pageSize + j * pageSize < size := by omega
      rw [writeLoop, if_pos (by omega), hNext]
      refine List.mem_cons_of_mem i ?_
      have hSame : i + (j * pageSize + pageSize) = i + pageSize + j * pageSize := by omega
      rw [hSame]
      exact ih hLater

theorem lt_pages_iff (hPage : 0 < pageSize) (j : Nat) :
    j < (size + pageSize - 1) / pageSize ↔ j * pageSize < size := by
  rw [Nat.lt_iff_add_one_le, Nat.le_div_iff_mul_le hPage, Nat.succ_mul]
  omega

theorem writeLoop_from (hPage : 0 < pageSize) (hType : pageSize < 2 ^ 64) (hSize : size < 2 ^ 63)
    {left k fuel : Nat} (hLeft : k + left = (size + pageSize - 1) / pageSize)
    (hFuel : left ≤ fuel) :
    writeLoop pageSize size fuel (k * pageSize) =
      (List.range' k left).map fun j => j * pageSize := by
  induction left generalizing k fuel with
  | zero =>
      have hEnd : ¬ k * pageSize < size := by
        rw [← lt_pages_iff hPage, ← hLeft]
        exact lt_irrefl k
      cases fuel with
      | zero => rfl
      | succ fuel => rw [writeLoop, if_neg hEnd, List.range'_zero, List.map_nil]
  | succ left ih =>
      obtain ⟨fuel, rfl⟩ := Nat.exists_eq_add_of_le' (Nat.le_of_add_left_le hFuel)
      have hMore : k * pageSize < size := by
        rw [← lt_pages_iff hPage, ← hLeft]
        omega
      -- The index exceeds the size of a page only while it is below that of the object.
      have hNext : (k * pageSize + pageSize) % 2 ^ 64 = (k + 1) * pageSize := by
        rw [Nat.succ_mul]
        refine Nat.mod_eq_of_lt ?_
        cases k with
        | zero => omega
        | succ k =>
            rw [Nat.succ_mul] at hMore ⊢
            omega
      rw [writeLoop, if_pos hMore, hNext, ih (by omega) (by omega), List.range'_succ, List.map_cons]

/-- For an object that `malloc` returns, the loop ends after a write for every page. -/
theorem writeLoop_eq (hPage : 0 < pageSize) (hType : pageSize < 2 ^ 64) (hSize : size < 2 ^ 63)
    {fuel : Nat} (hFuel : (size + pageSize - 1) / pageSize ≤ fuel) :
    writeLoop pageSize size fuel 0 =
      (List.range ((size + pageSize - 1) / pageSize)).map fun j => j * pageSize := by
  have hLoop := writeLoop_from hPage hType hSize (Nat.zero_add _) hFuel
  rwa [Nat.zero_mul, ← List.range_eq_range'] at hLoop

end Loop

section Chunks

variable (memory : Buffer) (numThreads : Nat)

/-- Where the chunks begin and end. -/
def chunkBound (k : Nat) : Nat :=
  if k < numThreads then memory.address + k * (memory.size / numThreads)
  else memory.address + memory.size

theorem chunkBound_last : chunkBound memory numThreads numThreads = memory.address + memory.size :=
  if_neg (lt_irrefl numThreads)

theorem chunkBound_mono : Monotone (chunkBound memory numThreads) := by
  refine monotone_nat_of_le_succ fun k => ?_
  rw [chunkBound, chunkBound]
  split_ifs with hThread hNext
  · exact Nat.add_le_add_left (Nat.mul_le_mul_right _ (Nat.le_succ k)) memory.address
  · have hChunks : k * (memory.size / numThreads) ≤ memory.size :=
      (Nat.mul_le_mul_right _ hThread.le).trans (Nat.mul_div_le memory.size numThreads)
    omega
  · omega
  · exact le_rfl

variable {memory numThreads}

theorem threadData_bounds (memory : Buffer) {i : Nat} (h : i < numThreads) :
    (threadData memory numThreads i).start = chunkBound memory numThreads i ∧
      (threadData memory numThreads i).start + (threadData memory numThreads i).size =
        chunkBound memory numThreads (i + 1) := by
  have hChunks : i * (memory.size / numThreads) ≤ memory.size :=
    (Nat.mul_le_mul_right _ h.le).trans (Nat.mul_div_le memory.size numThreads)
  rw [chunkBound, if_pos h, chunkBound]
  refine ⟨rfl, ?_⟩
  simp only [threadData]
  split_ifs with hLast hNext hNext
  · omega
  · omega
  · rw [Nat.succ_mul]
    omega
  · omega

/-- What a thread writes lies in its chunk. -/
theorem Writes.mem_chunk {pageSize i address : Nat}
    (h : Writes memory numThreads pageSize i address) :
    chunkBound memory numThreads i ≤ address ∧ address < chunkBound memory numThreads (i + 1) := by
  obtain ⟨hThread, fuel, hAddress⟩ := h
  obtain ⟨offset, hOffset, rfl⟩ := List.mem_map.mp hAddress
  obtain ⟨hStart, hEnd⟩ := threadData_bounds memory hThread
  have hInside := lt_of_mem_writeLoop hOffset
  omega

/-- A thread writes where the strides from the start of its chunk lead. -/
theorem writes_of_visits {pageSize i address : Nat} (hThread : i < numThreads)
    (h : Visits (chunkBound memory numThreads) pageSize i address) :
    Writes memory numThreads pageSize i address := by
  obtain ⟨j, rfl, hInside⟩ := h
  obtain ⟨hStart, hEnd⟩ := threadData_bounds memory hThread
  have hFits := memory.fits
  have hLast : chunkBound memory numThreads (i + 1) ≤ memory.address + memory.size := by
    have hMono := chunkBound_mono memory numThreads (show i + 1 ≤ numThreads from hThread)
    rwa [chunkBound_last] at hMono
  have hOffset := mem_writeLoop (show (threadData memory numThreads i).size ≤ 2 ^ 64 by omega)
    (show 0 + j * pageSize < (threadData memory numThreads i).size by omega)
  refine ⟨hThread, j + 1, List.mem_map.mpr ⟨_, hOffset, ?_⟩⟩
  omega

end Chunks

/-- Every window of a page in the buffer is written to, no write misses the buffer,
and no byte is written by two threads. -/
theorem disturber_touches_every_page (memory : Buffer) (numThreads pageSize : Nat)
    (hThreads : 1 ≤ numThreads) (hPage : 0 < pageSize) :
    (∀ window, memory.address ≤ window → window + pageSize ≤ memory.address + memory.size →
      ∃ i address, Writes memory numThreads pageSize i address ∧ window ≤ address ∧
        address < window + pageSize) ∧
    (∀ i address, Writes memory numThreads pageSize i address →
      memory.address ≤ address ∧ address < memory.address + memory.size) ∧
    ∀ i j address, Writes memory numThreads pageSize i address →
      Writes memory numThreads pageSize j address → i = j := by
  have hFirst : chunkBound memory numThreads 0 = memory.address := by
    rw [chunkBound, if_pos (show 0 < numThreads from hThreads), Nat.zero_mul, Nat.add_zero]
  have hMono := chunkBound_mono memory numThreads
  refine ⟨?_, ?_, ?_⟩
  · intro window hLow hHigh
    rw [← hFirst] at hLow
    rw [← chunkBound_last memory numThreads] at hHigh
    obtain ⟨i, hThread, address, hVisits, hWindow⟩ := exists_visit_in_window hPage hLow hHigh
    exact ⟨i, address, writes_of_visits hThread hVisits, hWindow⟩
  · intro i address hWrites
    obtain ⟨hLow, hHigh⟩ := hWrites.mem_chunk
    have hStart := hMono (Nat.zero_le i)
    have hEnd := hMono (show i + 1 ≤ numThreads from hWrites.1)
    rw [chunkBound_last] at hEnd
    omega
  · intro i j address hWrites hWrites'
    exact part_unique hMono hWrites.mem_chunk hWrites'.mem_chunk

/-- Six threads, ten pages and a rest, from an address that is not aligned. -/
def raggedBuffer : Buffer := ⟨4100, 41000, Nat.le_of_ble_eq_true rfl⟩

theorem raggedBuffer_touched :
    ∃ i address, Writes raggedBuffer 6 4096 i address ∧ 10923 ≤ address ∧
      address < 10923 + 4096 :=
  (disturber_touches_every_page raggedBuffer 6 4096 (by decide) (by decide)).1 10923 (by decide)
    (by decide)

end Disturber
