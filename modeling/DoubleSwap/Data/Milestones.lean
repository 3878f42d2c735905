import Mathlib.Data.List.Range
import Mathlib.Tactic

/-! A task of `total` items, at most one of which is finished at a time, and
its `parts` milestones. Milestone `j` is due when `total * (j + 1) / parts` items
are finished. A writer of milestones looks at one threshold after every item. -/
namespace Milestones

/-- The number of milestones that are due after `k` items. -/
def due (total parts k : Nat) : Nat := (parts * k + parts - 1) / total

/-- The number of milestones that a writer has written after `k` items when it
writes one, and no more, whenever the threshold of the next one is reached. -/
def written (threshold : Nat → Int) : Nat → Nat
  | 0 => 0
  | k + 1 =>
      if threshold (written threshold k) ≤ (k + 1 : Nat) then written threshold k + 1
      else written threshold k

section Due

variable {total parts : Nat} (hParts : 0 < parts) (hTotal : parts ≤ total)

include hParts hTotal in
/-- A milestone is reached as soon as so many are due. -/
theorem reached_iff (j k : Nat) : total * (j + 1) / parts ≤ k ↔ j < due total parts k := by
  have hPos : 0 < total := hParts.trans_le hTotal
  rw [due, Nat.lt_iff_add_one_le, Nat.le_div_iff_mul_le hPos, ← Nat.lt_succ_iff,
    Nat.div_lt_iff_lt_mul hParts, Nat.succ_mul, Nat.mul_comm total, Nat.mul_comm k]
  omega

include hParts in
/-- Before the first part is done none is due. -/
theorem due_zero (h : parts ≤ total) : due total parts 0 = 0 := by
  rw [due, Nat.mul_zero, Nat.zero_add, Nat.div_eq_of_lt (by omega)]

include hParts hTotal in
/-- In the end all are. -/
theorem due_total : due total parts total = parts := by
  have hPos : 0 < total := hParts.trans_le hTotal
  rw [due, Nat.div_eq_iff hPos]
  omega

include hParts hTotal in
theorem due_le {k : Nat} (h : k ≤ total) : due total parts k ≤ parts := by
  by_contra hMore
  have hReached := (reached_iff hParts hTotal parts k).mpr (by omega)
  have hPast : total + 1 ≤ total * (parts + 1) / parts := by
    rw [Nat.le_div_iff_mul_le hParts, Nat.add_mul, Nat.mul_add]
    omega
  omega

include hParts hTotal in
theorem due_lt {k : Nat} (h : k < total) : due total parts k < parts := by
  by_contra hAll
  have hReached := (reached_iff hParts hTotal (parts - 1) k).mpr (by omega)
  rw [Nat.sub_add_cancel hParts, Nat.mul_div_cancel _ hParts] at hReached
  omega

include hParts hTotal in
/-- One item more completes at most one milestone, and then it is the item that
the milestone is due at. -/
theorem due_succ (k : Nat) :
    if total * (due total parts k + 1) / parts ≤ k + 1 then
      due total parts (k + 1) = due total parts k + 1 ∧
        total * (due total parts k + 1) / parts = k + 1
    else due total parts (k + 1) = due total parts k := by
  have hBefore : ¬ total * (due total parts k + 1) / parts ≤ k := by
    rw [reached_iff hParts hTotal]
    exact lt_irrefl _
  have hMono : due total parts k ≤ due total parts (k + 1) := by
    by_contra hLess
    have hReached := (reached_iff hParts hTotal (due total parts (k + 1)) k).mpr (by omega)
    have hLater := (reached_iff hParts hTotal (due total parts (k + 1)) (k + 1)).mp (by omega)
    exact lt_irrefl _ hLater
  have hStep : due total parts (k + 1) ≤ due total parts k + 1 := by
    have hPos : 0 < total := hParts.trans_le hTotal
    rw [due, due, ← Nat.add_div_right _ hPos]
    apply Nat.div_le_div_right
    rw [Nat.mul_succ]
    omega
  split_ifs with hReached
  · have hMore := (reached_iff hParts hTotal _ _).mp hReached
    exact ⟨by omega, by omega⟩
  · rw [reached_iff hParts hTotal] at hReached
    omega

theorem filter_lt_range {n m : Nat} (h : n ≤ m) :
    (List.range m).filter (fun j => decide (j < n)) = List.range n := by
  obtain ⟨d, rfl⟩ := Nat.exists_eq_add_of_le h
  rw [List.range_add, List.filter_append, List.filter_eq_self.mpr, List.filter_eq_nil_iff.mpr,
    List.append_nil]
  · intro j hj
    obtain ⟨i, _, rfl⟩ := List.mem_map.mp hj
    simp
  · intro j hj
    simpa using hj

include hParts hTotal in
/-- The milestones that are due, in their order. -/
theorem filter_reached {k : Nat} (h : k ≤ total) :
    (List.range parts).filter (fun j => decide (total * (j + 1) / parts ≤ k)) =
      List.range (due total parts k) := by
  simp only [reached_iff hParts hTotal]
  exact filter_lt_range (due_le hParts hTotal h)

end Due

section Written

variable {total parts : Nat} (hParts : 0 < parts) (hTotal : parts ≤ total)
  {threshold : Nat → Int}

/-- Every milestone is written right after the item that it is due at. -/
def OnSchedule (total parts : Nat) (threshold : Nat → Int) : Prop :=
  ∀ k ≤ total, written threshold k = due total parts k

include hParts hTotal in
/-- Thresholds at the exact parts are on schedule. -/
theorem onSchedule_of_exact (h : ∀ j < parts, threshold j = (total * (j + 1) / parts : Nat)) :
    OnSchedule total parts threshold := by
  intro k hk
  induction k with
  | zero => exact (due_zero hParts hTotal).symm
  | succ k ih =>
      have hWritten := ih (Nat.le_of_succ_le hk)
      have hThreshold := h _ (due_lt hParts hTotal (Nat.lt_of_succ_le hk))
      have hStep := due_succ hParts hTotal k
      rw [written, hWritten]
      by_cases hReached : total * (due total parts k + 1) / parts ≤ k + 1
      · rw [if_pos hReached] at hStep
        rw [if_pos (by rw [hThreshold]; exact Int.ofNat_le.mpr hReached), hStep.1]
      · rw [if_neg hReached] at hStep
        rw [if_neg (by rw [hThreshold]; exact fun hLe => hReached (Int.ofNat_le.mp hLe)), hStep]

include hParts in
/-- When there are as many items as milestones, a threshold may be too low. -/
theorem onSchedule_of_low (h : ∀ j < parts, threshold j ≤ (j + 1 : Nat)) :
    OnSchedule parts parts threshold := by
  have hDue (k : Nat) : due parts parts k = k := by
    rw [due, Nat.div_eq_iff hParts, Nat.mul_comm]
    omega
  intro k hk
  rw [hDue]
  induction k with
  | zero => rfl
  | succ k ih => rw [written, ih (Nat.le_of_succ_le hk), if_pos (h k (Nat.lt_of_succ_le hk))]

include hParts hTotal in
/-- The last threshold of a writer that is on schedule. -/
theorem OnSchedule.last (h : OnSchedule total parts threshold) :
    threshold (parts - 1) ≤ total ∧ (parts < total → (total : Int) ≤ threshold (parts - 1)) := by
  obtain ⟨items, rfl⟩ : ∃ items, total = items + 1 :=
    Nat.exists_eq_add_of_le' (hParts.trans_le hTotal)
  have hDue {k : Nat} (hLow : (parts - 1) * (items + 1) ≤ parts * k + parts - 1)
      (hHigh : k ≤ items) : due (items + 1) parts k = parts - 1 := by
    have hFew := due_lt hParts hTotal (Nat.lt_succ_of_le hHigh)
    have hMany : parts - 1 ≤ due (items + 1) parts k :=
      (Nat.le_div_iff_mul_le (Nat.succ_pos items)).mpr hLow
    omega
  have hProduct : (parts - 1) * (items + 1) = parts * items + parts - (items + 1) := by
    rw [Nat.sub_mul, Nat.mul_succ, Nat.one_mul]
  have hBefore : written threshold items = parts - 1 := by
    rw [h items (Nat.le_succ items)]
    exact hDue (by omega) le_rfl
  have hAfter : written threshold (items + 1) = parts := by
    rw [h (items + 1) le_rfl, due_total hParts hTotal]
  rw [written, hBefore] at hAfter
  constructor
  · by_contra hNot
    rw [if_neg hNot] at hAfter
    omega
  · intro hMore
    obtain ⟨earlier, rfl⟩ := Nat.exists_eq_add_of_le' (show 1 ≤ items by omega)
    have hEarlier : written threshold earlier = parts - 1 := by
      rw [h earlier (by omega)]
      refine hDue ?_ (Nat.le_succ earlier)
      rw [hProduct, Nat.mul_succ]
      omega
    rw [written, hEarlier] at hBefore
    by_contra hLess
    rw [if_pos (by omega)] at hBefore
    omega

end Written

section Tenths

/-- The milestones of a task in ten parts, as percentages. -/
def tenths : List Nat := [10, 20, 30, 40, 50, 60, 70, 80, 90, 100]

theorem tenths_eq : tenths = (List.range 10).map fun j => 10 * (j + 1) := by decide

theorem percentage_eq (total j : Nat) : total * (10 * (j + 1)) / 100 = total * (j + 1) / 10 := by
  rw [Nat.mul_left_comm]
  exact Nat.mul_div_mul_left (total * (j + 1)) 10 (show 0 < 10 by decide)

variable {α : Type} {total : Nat} (hTen : 10 ≤ total) (line : Nat → α)

include hTen in
/-- The lines of the percentages that are complete after `k` items. -/
theorem lines_due {k : Nat} (h : k ≤ total) :
    (tenths.filter fun percentage => decide (total * percentage / 100 ≤ k)).map line =
      (List.range (due total 10 k)).map fun j => line (10 * (j + 1)) := by
  have hFilter : (tenths.filter fun percentage => decide (total * percentage / 100 ≤ k)) =
      (List.range (due total 10 k)).map fun j => 10 * (j + 1) := by
    rw [tenths_eq, List.filter_map, ← filter_reached (show 0 < 10 by decide) hTen h]
    congr 2
    funext j
    rw [Function.comp_apply, percentage_eq]
  rw [hFilter, List.map_map]
  rfl

include hTen in
/-- At the end every line is due. -/
theorem lines_total :
    (tenths.filter fun percentage => decide (total * percentage / 100 ≤ total)).map line =
      tenths.map line := by
  rw [lines_due hTen line le_rfl, due_total (by decide) hTen, tenths_eq, List.map_map]
  rfl

end Tenths

end Milestones
