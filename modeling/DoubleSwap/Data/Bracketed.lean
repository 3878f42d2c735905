import Mathlib.Data.List.Count
import Mathlib.Tactic

/-! Traces in which every key is opened before it is closed. The keys of
different items may coincide, so opens and closes are counted, not paired. -/
namespace Bracketed

section NeverAhead

variable {α : Type} [DecidableEq α] {start finish : α} {l m : List α}

/-- No prefix has more ends than starts. -/
def NeverAhead (start finish : α) (l : List α) : Prop :=
  ∀ n, (l.take n).count finish ≤ (l.take n).count start

theorem neverAhead_of_not_mem (h : finish ∉ l) : NeverAhead start finish l := by
  intro n
  rw [List.count_eq_zero_of_not_mem fun hMem => h (List.mem_of_mem_take hMem)]
  exact Nat.zero_le _

/-- Counts that agree may be put after one another. -/
theorem NeverAhead.append (h : NeverAhead start finish l) (h' : NeverAhead start finish m) :
    NeverAhead start finish (l ++ m) := by
  intro n
  rw [List.take_append, List.count_append, List.count_append]
  exact Nat.add_le_add (h n) (h' (n - l.length))

/-- Starts that are followed by no more ends than there are starts. -/
theorem neverAhead_append (hStarts : finish ∉ l) (hEnds : m.count finish ≤ l.count start) :
    NeverAhead start finish (l ++ m) := by
  intro n
  rw [List.take_append, List.count_append, List.count_append]
  have hNone : (l.take n).count finish = 0 :=
    List.count_eq_zero_of_not_mem fun hMem => hStarts (List.mem_of_mem_take hMem)
  rcases Nat.le_total n l.length with hFirst | hSecond
  · rw [hNone, Nat.sub_eq_zero_of_le hFirst, List.take_zero, List.count_nil]
    exact Nat.zero_le _
  · have hTake : (m.take (n - l.length)).count finish ≤ m.count finish :=
      (List.take_sublist _ m).count_le finish
    rw [hNone, List.take_of_length_le hSecond]
    omega

end NeverAhead

section Items

variable {α κ : Type} {start finish : κ → α}

/-- The events of an item that was opened and closed. -/
def bracket (start finish : κ → α) (keys : List κ) : List α := keys.map start ++ keys.map finish

/-- The events of a run: the items that were closed, and the keys of one that was not. -/
def events (start finish : κ → α) (closed : List (List κ)) (opened : List κ) : List α :=
  closed.flatMap (bracket start finish) ++ opened.map start

theorem events_cons (keys : List κ) (closed : List (List κ)) (opened : List κ) :
    events start finish (keys :: closed) opened =
      bracket start finish keys ++ events start finish closed opened := by
  rw [events, events, List.flatMap_cons, List.append_assoc]

variable (hStart : Function.Injective start) (hFinish : Function.Injective finish)
  (hDistinct : ∀ p q, start p ≠ finish q)

include hDistinct in
theorem finish_not_mem (keys : List κ) (q : κ) : finish q ∉ keys.map start := by
  intro hMem
  obtain ⟨p, _, hEq⟩ := List.mem_map.mp hMem
  exact hDistinct p q hEq

include hDistinct in
theorem start_not_mem (keys : List κ) (q : κ) : start q ∉ keys.map finish := by
  intro hMem
  obtain ⟨p, _, hEq⟩ := List.mem_map.mp hMem
  exact hDistinct q p hEq.symm

variable [DecidableEq α] [DecidableEq κ]

include hStart hFinish hDistinct in
/-- Every key of a bracket starts and finishes as often as it is in the list. -/
theorem count_bracket (keys : List κ) (q : κ) :
    (bracket start finish keys).count (start q) = keys.count q ∧
      (bracket start finish keys).count (finish q) = keys.count q := by
  rw [bracket, List.count_append, List.count_append, List.count_map_of_injective _ _ hStart,
    List.count_map_of_injective _ _ hFinish,
    List.count_eq_zero_of_not_mem (start_not_mem hDistinct keys q),
    List.count_eq_zero_of_not_mem (finish_not_mem hDistinct keys q)]
  exact ⟨Nat.add_zero _, Nat.zero_add _⟩

include hStart hFinish hDistinct in
/-- No key ever finishes more often than it has started, whatever is
still open. -/
theorem neverAhead_events (closed : List (List κ)) (opened : List κ) (q : κ) :
    NeverAhead (start q) (finish q) (events start finish closed opened) := by
  induction closed with
  | nil => exact neverAhead_of_not_mem (finish_not_mem hDistinct opened q)
  | cons keys closed ih =>
      rw [events_cons]
      refine NeverAhead.append (neverAhead_append (finish_not_mem hDistinct keys q) ?_) ih
      rw [List.count_map_of_injective _ _ hFinish, List.count_map_of_injective _ _ hStart]

include hStart hFinish hDistinct in
/-- What is left open is the item that was not closed. -/
theorem count_events (closed : List (List κ)) (opened : List κ) (q : κ) :
    (events start finish closed opened).count (start q) =
      (events start finish closed opened).count (finish q) + opened.count q := by
  induction closed with
  | nil =>
      show (opened.map start).count (start q) = (opened.map start).count (finish q) + _
      rw [List.count_map_of_injective _ _ hStart,
        List.count_eq_zero_of_not_mem (finish_not_mem hDistinct opened q), Nat.zero_add]
  | cons keys closed ih =>
      obtain ⟨hStarts, hEnds⟩ := count_bracket hStart hFinish hDistinct keys q
      rw [events_cons, List.count_append, List.count_append, ih, hStarts, hEnds, Nat.add_assoc]

end Items

end Bracketed
