import Mathlib.Tactic

/-! Values of the C type `int`, which is 32 bits wide. -/
namespace CInt

/-- A value of type `int`, undefined where it overflows. -/
def toInt (z : Int) : Option Int := if -2 ^ 31 ≤ z ∧ z < 2 ^ 31 then some z else none

/-- A number that fits is itself. -/
theorem toInt_eq_some {z w : Int} : toInt z = some w ↔ z = w ∧ -2 ^ 31 ≤ z ∧ z < 2 ^ 31 := by
  rw [toInt]
  split_ifs with h
  · rw [Option.some.injEq, and_iff_left h]
  · exact iff_of_false (fun hNone => by cases hNone) fun hRange => h hRange.2

theorem toInt_of_mem {z : Int} (h : -2 ^ 31 ≤ z ∧ z < 2 ^ 31) : toInt z = some z := if_pos h

/-- A number overflows exactly when it is out of range. -/
theorem toInt_eq_none {z : Int} : toInt z = none ↔ ¬ (-2 ^ 31 ≤ z ∧ z < 2 ^ 31) := by
  rw [toInt]
  split_ifs with h
  · exact iff_of_false (fun hSome => by cases hSome) (not_not_intro h)
  · exact iff_of_true rfl h

end CInt
