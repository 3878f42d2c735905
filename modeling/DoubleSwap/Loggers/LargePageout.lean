import DoubleSwap.Loggers.WorkQueue

/-! `pageout` and the pages of a folio. The host records a swap for every page
of a folio; the guest queues the frame of the first one. -/
namespace Loggers

/-- A call of `pageout`. -/
structure PageoutCall where
  folio : PageoutFolio
  /-- `page_to_pfn(&folio->page)`, which is the same before and after `writepage`. -/
  pfn : Nat
  /-- `folio_nr_pages` when the call starts. -/
  nrPages : Nat
  nrPages_pos : 0 < nrPages
  /-- `writepage` splits the folio, which keeps its first page. -/
  split : Bool
  deriving DecidableEq

namespace PageoutCall

/-- `folio_nr_pages` when the call ends. -/
def nrPagesLeft (call : PageoutCall) : Nat := if call.split then 1 else call.nrPages

theorem nrPagesLeft_pos (call : PageoutCall) : 0 < call.nrPagesLeft := by
  rw [nrPagesLeft]
  split_ifs
  · exact Nat.one_pos
  · exact call.nrPages_pos

def result (call : PageoutCall) : PageoutT := (pageout call.folio call.pfn).1

/-- The work items of the call. -/
def queued (call : PageoutCall) : List LogWork := (pageout call.folio call.pfn).2

end PageoutCall

/-- The folio passes every test of `pageout`. -/
def PageoutFolio.writtenOut (folio : PageoutFolio) : Bool :=
  folio.freeable && folio.hasMapping && folio.hasWritepage && folio.dirtyForIo && !folio.activates

theorem pageout_of_writtenOut {folio : PageoutFolio} (pfn : Nat) (h : folio.writtenOut = true) :
    pageout folio pfn = (.success, [.guestSwapOut pfn true, .guestSwapOut pfn false]) := by
  simp only [PageoutFolio.writtenOut, Bool.and_eq_true, Bool.not_eq_true'] at h
  obtain ⟨⟨⟨⟨hFreeable, hMapping⟩, hWritepage⟩, hDirty⟩, hActivates⟩ := h
  simp only [pageout, hFreeable, hMapping, hWritepage, hDirty, hActivates, Bool.not_true,
    Bool.false_eq_true, if_false, if_true, List.cons_append, List.nil_append]

/-- The other exits leave nothing but the start that was queued on entry. -/
theorem pageout_of_not_writtenOut {folio : PageoutFolio} (pfn : Nat)
    (h : folio.writtenOut = false) :
    (pageout folio pfn).1 ≠ .success ∧ (pageout folio pfn).2 = [.guestSwapOut pfn true] := by
  obtain ⟨freeable, hasMapping, buffersFreed, hasWritepage, dirtyForIo, activates⟩ := folio
  revert h
  cases freeable <;> cases hasMapping <;> cases buffersFreed <;> cases hasWritepage <;>
    cases dirtyForIo <;> cases activates <;> simp [PageoutFolio.writtenOut, pageout]

theorem result_eq_success_iff (call : PageoutCall) :
    call.result = .success ↔ call.folio.writtenOut = true := by
  cases hWritten : call.folio.writtenOut with
  | false =>
      exact iff_of_false (pageout_of_not_writtenOut call.pfn hWritten).1 Bool.false_ne_true
  | true =>
      refine iff_of_true ?_ rfl
      rw [PageoutCall.result, pageout_of_writtenOut call.pfn hWritten]

/-- Every call that ends in `PAGE_SUCCESS` has one start and one end in the queue
for each page of its folio, and no other call has an end. -/
def PagesTraced (nrPages : PageoutCall → Nat) (calls : List PageoutCall) : Prop :=
  ∀ call ∈ calls,
    (call.result = .success → ∀ page < nrPages call,
      call.queued.count (.guestSwapOut (call.pfn + page) true) = 1 ∧
        call.queued.count (.guestSwapOut (call.pfn + page) false) = 1) ∧
    ∀ pfn, .guestSwapOut pfn false ∈ call.queued → call.result = .success

theorem no_end_without_success {call : PageoutCall} {pfn : Nat}
    (h : .guestSwapOut pfn false ∈ call.queued) : call.result = .success := by
  rw [result_eq_success_iff]
  by_contra hNot
  rw [PageoutCall.queued,
    (pageout_of_not_writtenOut call.pfn (Bool.eq_false_of_not_eq_true hNot)).2,
    List.mem_singleton] at h
  cases h

/-- Only the first page of a folio that is written out has its items. -/
theorem count_queued {call : PageoutCall} (h : call.folio.writtenOut = true) (page : Nat)
    (up : Bool) :
    call.queued.count (.guestSwapOut (call.pfn + page) up) = if page = 0 then 1 else 0 := by
  rw [PageoutCall.queued, pageout_of_writtenOut call.pfn h]
  split_ifs with hFirst
  · rw [hFirst, Nat.add_zero]
    cases up with
    | false => simp
    | true => simp
  · rw [List.count_eq_zero]
    simp [hFirst]

theorem pagesTraced_iff {nrPages : PageoutCall → Nat} (hPos : ∀ call, 0 < nrPages call)
    (calls : List PageoutCall) :
    PagesTraced nrPages calls ↔
      ∀ call ∈ calls, call.folio.writtenOut = true → nrPages call = 1 := by
  refine forall₂_congr fun call _ => ?_
  rw [and_iff_left fun pfn => no_end_without_success, result_eq_success_iff]
  refine imp_congr_right fun hWritten => ?_
  simp only [count_queued hWritten, and_self]
  have hFirst := hPos call
  constructor
  · intro hAll
    by_contra hMany
    have hSecond := hAll 1 (by omega)
    simp at hSecond
  · intro hOne page hPage
    rw [if_pos (by omega)]

/-- The pages of the folios are traced, those at the start of each call as well
as those at its end, exactly when no folio with more of them is written out. -/
theorem large_folios_traced_iff (calls : List PageoutCall) :
    (PagesTraced PageoutCall.nrPages calls ↔
      ∀ call ∈ calls, call.folio.writtenOut = true → call.nrPages = 1) ∧
    (PagesTraced PageoutCall.nrPagesLeft calls ↔
      ∀ call ∈ calls, call.folio.writtenOut = true → call.nrPages = 1 ∨ call.split = true) := by
  refine ⟨pagesTraced_iff PageoutCall.nrPages_pos calls, ?_⟩
  rw [pagesTraced_iff PageoutCall.nrPagesLeft_pos]
  refine forall₂_congr fun call _ => imp_congr_right fun _ => ?_
  rw [PageoutCall.nrPagesLeft]
  cases call.split with
  | false => simp
  | true => simp

/-- The dirty folio of the frames 8 and 9. -/
def twoPageCall : PageoutCall := ⟨dirtyFolio, 8, 2, Nat.two_pos, false⟩

/-- Frame 9 is written to the swap, and no item names it. -/
theorem twoPageCall_not_traced :
    ¬ PagesTraced PageoutCall.nrPages [twoPageCall] ∧
      ¬ PagesTraced PageoutCall.nrPagesLeft [twoPageCall] ∧
      twoPageCall.result = .success ∧
      twoPageCall.queued = [.guestSwapOut 8 true, .guestSwapOut 8 false] := by
  have hItems : ¬ (twoPageCall.queued.count (.guestSwapOut (8 + 1) true) = 1) := by decide
  refine ⟨fun h => ?_, fun h => ?_, rfl, rfl⟩
  · exact hItems ((h twoPageCall (List.mem_singleton_self _)).1 rfl 1 (by decide)).1
  · exact hItems ((h twoPageCall (List.mem_singleton_self _)).1 rfl 1 (by decide)).1

end Loggers
