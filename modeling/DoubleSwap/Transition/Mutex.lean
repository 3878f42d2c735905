import Mathlib.Algebra.BigOperators.Group.Finset.Basic
import Mathlib.Tactic.Abel

/-! A mutex among any number of threads: a thread is where it holds the mutex
exactly if the mutex names it. What the threads have sums up thread by thread. -/
namespace Transition

variable {ι τ : Type} [DecidableEq ι] {holds : τ → Prop} {mutex : Option ι} {threads : ι → τ}

/-- The places of the threads agree with the mutex. -/
def Excludes (holds : τ → Prop) (mutex : Option ι) (threads : ι → τ) : Prop :=
  ∀ t, holds (threads t) ↔ mutex = some t

/-- A thread that does not come to the mutex moves. -/
theorem Excludes.keep (h : Excludes holds mutex threads) {t : ι} {next : τ}
    (hNext : holds next ↔ holds (threads t)) :
    Excludes holds mutex (Function.update threads t next) := by
  refine (Function.forall_update_iff threads fun t th => holds th ↔ mutex = some t).mpr ⟨?_, ?_⟩
  · rw [hNext, h t]
  · exact fun t' _ => h t'

theorem Excludes.acquire (h : Excludes holds none threads) {t : ι} {next : τ} (hNext : holds next) :
    Excludes holds (some t) (Function.update threads t next) := by
  refine (Function.forall_update_iff threads fun t' th => holds th ↔ some t = some t').mpr
    ⟨iff_of_true hNext rfl, ?_⟩
  intro t' hOther
  rw [h t']
  exact iff_of_false (fun hNone => by cases hNone) fun hSome => hOther (Option.some.inj hSome).symm

theorem Excludes.release (h : Excludes holds mutex threads) {t : ι} {next : τ}
    (hHeld : holds (threads t)) (hNext : ¬ holds next) :
    Excludes holds none (Function.update threads t next) := by
  refine (Function.forall_update_iff threads fun t' th => holds th ↔ none = some t').mpr
    ⟨iff_of_false hNext (fun hNone => by cases hNone), ?_⟩
  intro t' hOther
  rw [h t', (h t).mp hHeld]
  exact iff_of_false (fun hSome => hOther (Option.some.inj hSome).symm) fun hNone => by cases hNone

omit [DecidableEq ι] in
/-- Only one thread is where it holds the mutex. -/
theorem Excludes.unique (h : Excludes holds mutex threads) {t t' : ι} (hHolds : holds (threads t))
    (hHolds' : holds (threads t')) : t = t' :=
  Option.some.inj (((h t).mp hHolds).symm.trans ((h t').mp hHolds'))

/-- The sum over the threads when one of them moves. -/
theorem sum_update {M : Type} [AddCommMonoid M] (f : τ → M) {s : Finset ι} {t : ι} (ht : t ∈ s)
    (threads : ι → τ) (next : τ) :
    ∑ t' ∈ s, f (Function.update threads t next t') + f (threads t) =
      ∑ t' ∈ s, f (threads t') + f next := by
  have hOthers : ∑ t' ∈ s.erase t, f (Function.update threads t next t') =
      ∑ t' ∈ s.erase t, f (threads t') :=
    Finset.sum_congr rfl fun t' ht' => by rw [Function.update_of_ne (Finset.ne_of_mem_erase ht')]
  rw [← Finset.add_sum_erase s _ ht, ← Finset.add_sum_erase s (fun t' => f (threads t')) ht,
    hOthers, Function.update_self]
  abel

end Transition
