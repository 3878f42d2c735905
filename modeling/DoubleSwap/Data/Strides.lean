import Mathlib.Order.SuccPred.IntervalSucc
import Mathlib.Data.Nat.SuccPred
import Mathlib.Tactic.SplitIfs

/-! Consecutive parts of an interval, part `k` from `bound k` up to `bound (k + 1)`,
each walked in strides from its own start. -/
namespace Strides

variable {bound : Nat → Nat} {stride parts : Nat}

/-- The points of a part that a walk comes to. -/
def Visits (bound : Nat → Nat) (stride k point : Nat) : Prop :=
  ∃ j, point = bound k + j * stride ∧ point < bound (k + 1)

/-- A window that is as long as a stride meets the walk of the part that it ends
in, or else the start of that part. -/
theorem exists_visit_in_window (hStride : 0 < stride) {window : Nat} (hLow : bound 0 ≤ window)
    (hHigh : window + stride ≤ bound parts) :
    ∃ k < parts, ∃ point, Visits bound stride k point ∧ window ≤ point ∧
      point < window + stride := by
  induction parts with
  | zero => omega
  | succ parts ih =>
      by_cases hEarlier : window + stride ≤ bound parts
      · obtain ⟨k, hk, hPoint⟩ := ih hEarlier
        exact ⟨k, Nat.lt_succ_of_lt hk, hPoint⟩
      · refine ⟨parts, Nat.lt_succ_self parts, ?_⟩
        by_cases hStart : window ≤ bound parts
        · refine ⟨bound parts, ⟨0, ?_, ?_⟩, hStart, Nat.lt_of_not_le hEarlier⟩
          · rw [Nat.zero_mul, Nat.add_zero]
          · omega
        · have hSteps := Nat.div_add_mod' (window - bound parts + stride - 1) stride
          have hRest := Nat.mod_lt (window - bound parts + stride - 1) hStride
          refine ⟨_, ⟨(window - bound parts + stride - 1) / stride, rfl, ?_⟩, ?_, ?_⟩
          · omega
          · omega
          · omega

/-- The parts do not overlap. -/
theorem part_unique (hMono : Monotone bound) {k l point : Nat}
    (hk : bound k ≤ point ∧ point < bound (k + 1))
    (hl : bound l ≤ point ∧ point < bound (l + 1)) : k = l := by
  by_contra hDifferent
  exact Set.disjoint_left.mp (hMono.pairwise_disjoint_on_Ico_succ hDifferent) hk hl

end Strides
