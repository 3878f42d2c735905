import Mathlib.Tactic

/-! Occurrence of a list of tests along a list of events, at increasing
positions. One pass that waits for the next test finds an occurrence whenever
there is one, also when one event passes several of the tests. -/
namespace Occurrence

variable {α : Type}

/-- There is an event at the position, and it has the property. -/
def HoldsAt (p : α → Prop) (events : List α) (i : Nat) : Prop := ∃ x, events[i]? = some x ∧ p x

/-- The properties hold at increasing positions, none of them before `start`. -/
def OccursFrom (start : Nat) : List (α → Prop) → List α → Prop
  | [], _ => True
  | p :: ps, events => ∃ i, start ≤ i ∧ HoldsAt p events i ∧ OccursFrom (i + 1) ps events

/-- One pass over the events that waits for the next test to succeed. -/
def greedy : List (α → Bool) → List α → Bool
  | [], _ => true
  | _ :: _, [] => false
  | p :: ps, x :: events => if p x then greedy ps events else greedy (p :: ps) events

@[simp] theorem holdsAt_nil (p : α → Prop) (i : Nat) : ¬ HoldsAt p [] i := by
  rintro ⟨x, hx, _⟩
  simp at hx

@[simp] theorem holdsAt_cons_zero (p : α → Prop) (x : α) (events : List α) :
    HoldsAt p (x :: events) 0 ↔ p x := by
  simp [HoldsAt]

@[simp] theorem holdsAt_cons_succ (p : α → Prop) (x : α) (events : List α) (i : Nat) :
    HoldsAt p (x :: events) (i + 1) ↔ HoldsAt p events i := by
  simp [HoldsAt]

theorem HoldsAt.lt_length {p : α → Prop} {events : List α} {i : Nat} (hp : HoldsAt p events i) :
    i < events.length := by
  obtain ⟨x, hx, _⟩ := hp
  exact (List.getElem?_eq_some_iff.mp hx).1

/-- Properties that exclude each other hold at different positions. -/
theorem HoldsAt.ne {p q : α → Prop} (h : ∀ x, p x → ¬ q x) {events : List α} {i j : Nat}
    (hp : HoldsAt p events i) (hq : HoldsAt q events j) : i ≠ j := by
  rintro rfl
  obtain ⟨x, hx, hFirst⟩ := hp
  obtain ⟨y, hy, hSecond⟩ := hq
  have hEq : x = y := Option.some.inj (hx.symm.trans hy)
  exact h x hFirst (hEq ▸ hSecond)

/-- A predicate holds at a position if it holds of an element. -/
theorem exists_holdsAt_iff {p : α → Prop} {events : List α} :
    (∃ i, HoldsAt p events i) ↔ ∃ x ∈ events, p x := by
  constructor
  · rintro ⟨i, x, hx, hProperty⟩
    exact ⟨x, List.mem_of_getElem? hx, hProperty⟩
  · rintro ⟨x, hx, hProperty⟩
    obtain ⟨i, hi⟩ := List.mem_iff_getElem?.mp hx
    exact ⟨i, x, hi, hProperty⟩

/-- A pattern that occurs later on occurs from here on. -/
theorem OccursFrom.mono {first second : Nat} (h : first ≤ second) {ps : List (α → Prop)}
    {events : List α} (hOccurs : OccursFrom second ps events) : OccursFrom first ps events := by
  cases ps with
  | nil => trivial
  | cons p ps =>
      obtain ⟨i, hi, hHolds, hRest⟩ := hOccurs
      exact ⟨i, h.trans hi, hHolds, hRest⟩

theorem occursFrom_cons_succ (start : Nat) (ps : List (α → Prop)) (x : α) (events : List α) :
    OccursFrom (start + 1) ps (x :: events) ↔ OccursFrom start ps events := by
  induction ps generalizing start with
  | nil => exact Iff.rfl
  | cons p ps ih =>
      constructor
      · rintro ⟨i, hi, hHolds, hRest⟩
        obtain ⟨j, rfl⟩ := Nat.exists_eq_add_of_lt (Nat.lt_of_succ_le hi)
        rw [holdsAt_cons_succ] at hHolds
        exact ⟨start + j, Nat.le_add_right start j, hHolds, (ih _).mp hRest⟩
      · rintro ⟨i, hi, hHolds, hRest⟩
        exact ⟨i + 1, Nat.succ_le_succ hi, (holdsAt_cons_succ p x events i).mpr hHolds,
          (ih _).mpr hRest⟩

/-- At an event with the awaited property the occurrence may as well start. -/
theorem occursFrom_cons_of_pos {p : α → Prop} {ps : List (α → Prop)} {x : α} {events : List α}
    (hx : p x) : OccursFrom 0 (p :: ps) (x :: events) ↔ OccursFrom 0 ps events := by
  constructor
  · rintro ⟨i, _, _, hRest⟩
    have hLater : OccursFrom 1 ps (x :: events) := hRest.mono (Nat.succ_le_succ (Nat.zero_le i))
    exact (occursFrom_cons_succ 0 ps x events).mp hLater
  · intro hRest
    exact ⟨0, Nat.le_refl 0, (holdsAt_cons_zero p x events).mpr hx,
      (occursFrom_cons_succ 0 ps x events).mpr hRest⟩

/-- An element of the wrong kind is passed over. -/
theorem occursFrom_cons_of_neg {p : α → Prop} {ps : List (α → Prop)} {x : α} {events : List α}
    (hx : ¬ p x) : OccursFrom 0 (p :: ps) (x :: events) ↔ OccursFrom 0 (p :: ps) events := by
  constructor
  · rintro ⟨i, _, hHolds, hRest⟩
    cases i with
    | zero => exact absurd ((holdsAt_cons_zero p x events).mp hHolds) hx
    | succ i =>
        exact ⟨i, Nat.zero_le i, (holdsAt_cons_succ p x events i).mp hHolds,
          (occursFrom_cons_succ (i + 1) ps x events).mp hRest⟩
  · intro hOccurs
    exact ((occursFrom_cons_succ 0 _ x events).mpr hOccurs).mono (Nat.zero_le 1)

theorem occursFrom_nil {p : α → Prop} {ps : List (α → Prop)} :
    ¬ OccursFrom 0 (p :: ps) ([] : List α) := by
  rintro ⟨i, _, hHolds, _⟩
  exact holdsAt_nil p i hHolds

theorem occursFrom_singleton {p : α → Prop} {events : List α} :
    OccursFrom 0 [p] events ↔ ∃ x ∈ events, p x := by
  rw [← exists_holdsAt_iff]
  constructor
  · rintro ⟨i, _, hHolds, _⟩
    exact ⟨i, hHolds⟩
  · rintro ⟨i, hHolds⟩
    exact ⟨i, Nat.zero_le i, hHolds, trivial⟩

/-- The pass misses no occurrence. -/
theorem greedy_iff (tests : List (α → Bool)) (events : List α) :
    greedy tests events = true ↔ OccursFrom 0 (tests.map fun p x => p x = true) events := by
  induction events generalizing tests with
  | nil =>
      cases tests with
      | nil => simp [greedy, OccursFrom]
      | cons p ps =>
          rw [greedy, List.map_cons]
          exact iff_of_false Bool.false_ne_true occursFrom_nil
  | cons x events ih =>
      cases tests with
      | nil => simp [greedy, OccursFrom]
      | cons p ps =>
          rw [greedy, List.map_cons]
          by_cases hx : p x = true
          · rw [if_pos hx, ih ps, occursFrom_cons_of_pos (p := fun x => p x = true) hx]
          · rw [if_neg hx, ih (p :: ps), occursFrom_cons_of_neg (p := fun x => p x = true) hx,
              List.map_cons]

/-- An event that excludes the last two of three others may fall anywhere after
the first of them: three orders cover every placement. -/
theorem occurs_woven_iff {p q r s : α → Prop} (hqr : ∀ x, q x → ¬ r x) (hqs : ∀ x, q x → ¬ s x)
    (events : List α) :
    (OccursFrom 0 [p, r, q, s] events ∨ OccursFrom 0 [p, r, s, q] events ∨
        OccursFrom 0 [p, q, r, s] events) ↔
      ∃ h i a b, h < i ∧ h < a ∧ a < b ∧ HoldsAt p events h ∧ HoldsAt q events i ∧
        HoldsAt r events a ∧ HoldsAt s events b := by
  constructor
  · rintro (⟨h, _, hp, a, ha, hr, i, hi, hq, b, hb, hs, _⟩ |
      ⟨h, _, hp, a, ha, hr, b, hb, hs, i, hi, hq, _⟩ |
      ⟨h, _, hp, i, hi, hq, a, ha, hr, b, hb, hs, _⟩)
    · exact ⟨h, i, a, b, by omega, by omega, by omega, hp, hq, hr, hs⟩
    · exact ⟨h, i, a, b, by omega, by omega, by omega, hp, hq, hr, hs⟩
    · exact ⟨h, i, a, b, by omega, by omega, by omega, hp, hq, hr, hs⟩
  · rintro ⟨h, i, a, b, hhi, hha, hab, hp, hq, hr, hs⟩
    have hStart : i ≠ a := hq.ne hqr hr
    have hEnd : i ≠ b := hq.ne hqs hs
    rcases lt_or_gt_of_ne hStart with hBefore | hAfter
    · exact Or.inr (Or.inr ⟨h, Nat.zero_le h, hp, i, hhi, hq, a, hBefore, hr, b, hab, hs, trivial⟩)
    · rcases lt_or_gt_of_ne hEnd with hBetween | hLast
      · exact Or.inl ⟨h, Nat.zero_le h, hp, a, hha, hr, i, hAfter, hq, b, hBetween, hs, trivial⟩
      · exact Or.inr (Or.inl ⟨h, Nat.zero_le h, hp, a, hha, hr, b, hab, hs, i, hLast, hq, trivial⟩)

/-- The events after the first one that passes the test. -/
def afterFirst (p : α → Bool) : List α → List α
  | [] => []
  | x :: events => if p x then events else afterFirst p events

/-- The events before the last one that passes the test. -/
def beforeLast (p : α → Bool) : List α → List α
  | [] => []
  | x :: events => if events.any p then x :: beforeLast p events else []

/-- The events strictly between the first that passes one test and the last
that passes the other. -/
def between (first last : α → Bool) (events : List α) : List α :=
  beforeLast last (afterFirst first events)

/-- What occurs after the first element of a kind occurs after some. -/
theorem occursFrom_afterFirst {p : α → Bool} {q : α → Prop} {ps : List (α → Prop)}
    {events : List α} :
    OccursFrom 0 (q :: ps) (afterFirst p events) ↔
      OccursFrom 0 ((fun x => p x = true) :: q :: ps) events := by
  induction events with
  | nil => exact iff_of_false occursFrom_nil occursFrom_nil
  | cons x events ih =>
      rw [afterFirst]
      split_ifs with hx
      · rw [occursFrom_cons_of_pos (p := fun x => p x = true) hx]
      · rw [occursFrom_cons_of_neg (p := fun x => p x = true) hx, ih]

/-- What is before the last element of a kind is before some. -/
theorem exists_beforeLast_iff {p : α → Bool} {q : α → Prop} {events : List α} :
    (∃ x ∈ beforeLast p events, q x) ↔ OccursFrom 0 [q, fun x => p x = true] events := by
  induction events with
  | nil => exact iff_of_false (by simp [beforeLast]) occursFrom_nil
  | cons x events ih =>
      rw [beforeLast]
      split_ifs with hAny
      · have hLast := List.any_eq_true.mp hAny
        rw [List.exists_mem_cons_iff, ih]
        by_cases hx : q x
        · rw [occursFrom_cons_of_pos hx, occursFrom_singleton]
          exact iff_of_true (Or.inl hx) hLast
        · rw [occursFrom_cons_of_neg hx]
          exact or_iff_right hx
      · refine iff_of_false (by simp) ?_
        rintro ⟨i, _, _, j, hij, hHolds, _⟩
        obtain ⟨k, rfl⟩ := Nat.exists_eq_succ_of_ne_zero (Nat.ne_zero_of_lt hij)
        have hSome := exists_holdsAt_iff.mp ⟨k, (holdsAt_cons_succ _ x events k).mp hHolds⟩
        exact hAny (List.any_eq_true.mpr hSome)

theorem exists_afterFirst_iff (p : α → Bool) (q : α → Prop) (events : List α) :
    (∃ x ∈ afterFirst p events, q x) ↔ OccursFrom 0 [fun x => p x = true, q] events := by
  rw [← occursFrom_afterFirst, occursFrom_singleton]

/-- Both at once. -/
theorem exists_between_iff (first last : α → Bool) (q : α → Prop) (events : List α) :
    (∃ x ∈ between first last events, q x) ↔
      OccursFrom 0 [fun x => first x = true, q, fun x => last x = true] events := by
  rw [between, exists_beforeLast_iff, occursFrom_afterFirst]

end Occurrence
