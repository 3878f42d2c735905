import Mathlib.Tactic

/-! Finite runs of a labelled transition relation, the rule that carries an
invariant along a run, and the rule that bounds its length. -/
namespace Transition

variable {σ ι : Type}

/-- `Run Step start labels s`: the labels lead from `start` to `s`. -/
inductive Run (Step : σ → ι → σ → Prop) (start : σ) : List ι → σ → Prop where
  | nil : Run Step start [] start
  | concat {labels : List ι} {s t : σ} {label : ι}
      (prior : Run Step start labels s) (last : Step s label t) :
      Run Step start (labels ++ [label]) t

variable {Step : σ → ι → σ → Prop} {start s t : σ} {labels : List ι}

/-- What holds at the start and is preserved by every step holds after every run. -/
theorem Run.invariant {Inv : σ → Prop} (run : Run Step start labels s) (hStart : Inv start)
    (hStep : ∀ s label t, Inv s → Step s label t → Inv t) : Inv s := by
  induction run with
  | nil => exact hStart
  | concat prior last ih => exact hStep _ _ _ ih last

/-- A run of a relation is a run of every larger one. -/
theorem Run.mono {Step' : σ → ι → σ → Prop} (run : Run Step start labels s)
    (hStep : ∀ s label t, Step s label t → Step' s label t) : Run Step' start labels s := by
  induction run with
  | nil => exact Run.nil
  | concat prior last ih => exact Run.concat ih (hStep _ _ _ last)

section Measure

variable {Inv : σ → Prop} (measure : σ → Nat) (hStart : Inv start)
  (hStep : ∀ s label t, Inv s → Step s label t → Inv t ∧ measure t < measure s)

include hStart hStep in
/-- Steps that lower a measure are as many as the measure is large. -/
theorem Run.length_le (run : Run Step start labels s) :
    Inv s ∧ labels.length + measure s ≤ measure start := by
  induction run with
  | nil => exact ⟨hStart, (Nat.zero_add _).le⟩
  | concat prior last ih =>
      obtain ⟨hInv, hLength⟩ := ih
      obtain ⟨hNext, hLess⟩ := hStep _ _ _ hInv last
      refine ⟨hNext, ?_⟩
      rw [List.length_append, List.length_singleton]
      omega

include hStart hStep in
/-- Every run can be carried on to a state without a step. -/
theorem Run.exists_stuck (run : Run Step start labels s) :
    ∃ labels' s', Run Step start labels' s' ∧ ∀ label t, ¬ Step s' label t := by
  induction hMeasure : measure s using Nat.strong_induction_on generalizing labels s with
  | _ bound ih =>
      by_cases hStuck : ∀ label t, ¬ Step s label t
      · exact ⟨labels, s, run, hStuck⟩
      · push Not at hStuck
        obtain ⟨label, t, last⟩ := hStuck
        obtain ⟨_, hLess⟩ := hStep s label t (run.length_le measure hStart hStep).1 last
        exact ih (measure t) (hMeasure ▸ hLess) (run.concat last) rfl

end Measure

end Transition
