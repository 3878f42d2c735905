import Mathlib.Data.List.ReduceOption
import Mathlib.Tactic

/-! Loops whose body can raise. A loop that parses an element and then updates
an accumulator is the same as parsing the whole list and folding the results,
with the first failure of the list as its only failure. -/
namespace Fallible

variable {ε α β γ : Type}

/-- Two steps succeed if both do. -/
theorem bind_eq_ok {x : Except ε α} {f : α → Except ε β} {b : β} :
    (x >>= f) = .ok b ↔ ∃ a, x = .ok a ∧ f a = .ok b := by
  cases x with
  | error e => simp [bind, Except.bind]
  | ok a => simp [bind, Except.bind]

theorem map_eq_ok {x : Except ε α} {f : α → β} {b : β} :
    x.map f = .ok b ↔ ∃ a, x = .ok a ∧ f a = b := by
  cases x with
  | error e => simp [Except.map]
  | ok a => simp [Except.map]

theorem mapError_eq_ok {x : Except ε α} {f : ε → γ} {a : α} :
    x.mapError f = .ok a ↔ x = .ok a := by
  cases x with
  | error e => simp [Except.mapError]
  | ok a => simp [Except.mapError]

theorem pure_eq_ok {a b : α} : (pure a : Except ε α) = .ok b ↔ a = b := by
  simp [pure, Except.pure]

/-- A loop succeeds if its first round and the others do. -/
theorem mapM_cons_ok {f : α → Except ε β} {a : α} {l : List α} {values : List β} :
    (a :: l).mapM f = .ok values ↔
      ∃ value rest, f a = .ok value ∧ l.mapM f = .ok rest ∧ values = value :: rest := by
  rw [List.mapM_cons]
  cases f a with
  | error e => simp [bind, Except.bind]
  | ok value =>
      cases l.mapM f with
      | error e => simp [bind, Except.bind]
      | ok rest => simp [bind, Except.bind, pure, Except.pure, eq_comm]

/-- Where no round fails the loop is a map. -/
theorem mapM_ok {f : α → Except ε β} {g : α → β} {l : List α} (h : ∀ a ∈ l, f a = .ok (g a)) :
    l.mapM f = .ok (l.map g) := by
  induction l with
  | nil => rfl
  | cons a l ih =>
      rw [mapM_cons_ok]
      exact ⟨g a, l.map g, h a List.mem_cons_self,
        ih (fun b hb => h b (List.mem_cons_of_mem _ hb)), rfl⟩

/-- Success of the whole list is success of every element. -/
theorem mapM_isOk_iff {f : α → Except ε β} {l : List α} :
    (∃ values, l.mapM f = .ok values) ↔ ∀ a ∈ l, ∃ value, f a = .ok value := by
  induction l with
  | nil => simp [pure, Except.pure]
  | cons a l ih =>
      simp only [mapM_cons_ok, List.forall_mem_cons]
      constructor
      · rintro ⟨_, value, rest, hHead, hTail, _⟩
        exact ⟨⟨value, hHead⟩, ih.mp ⟨rest, hTail⟩⟩
      · rintro ⟨⟨value, hHead⟩, hTail⟩
        obtain ⟨rest, hRest⟩ := ih.mpr hTail
        exact ⟨value :: rest, value, rest, hHead, hRest, rfl⟩

/-- The results that are present are those of the elements that have one. -/
theorem reduceOption_of_mapM {f : α → Except ε (Option β)} {l : List α} {values : List (Option β)}
    (h : l.mapM f = .ok values) :
    values.reduceOption = l.filterMap fun a => (f a).toOption.join := by
  induction l generalizing values with
  | nil =>
      cases h
      rfl
  | cons a l ih =>
      obtain ⟨value, rest, hHead, hTail, rfl⟩ := mapM_cons_ok.mp h
      cases value with
      | none =>
          rw [List.reduceOption_cons_of_none, List.filterMap_cons_none (by rw [hHead]; rfl),
            ih hTail]
      | some b =>
          rw [List.reduceOption_cons_of_some, List.filterMap_cons_some (by rw [hHead]; rfl),
            ih hTail]

/-- Reordering the input reorders the results. -/
theorem mapM_perm {f : α → Except ε β} {l₁ l₂ : List α} (hPerm : l₁.Perm l₂) {values : List β}
    (h : l₁.mapM f = .ok values) : ∃ others, l₂.mapM f = .ok others ∧ values.Perm others := by
  induction hPerm generalizing values with
  | nil => exact ⟨values, h, List.Perm.refl _⟩
  | cons a _ ih =>
      obtain ⟨value, rest, hHead, hTail, rfl⟩ := mapM_cons_ok.mp h
      obtain ⟨others, hOthers, hRest⟩ := ih hTail
      exact ⟨value :: others, mapM_cons_ok.mpr ⟨value, others, hHead, hOthers, rfl⟩, hRest.cons _⟩
  | swap a b l =>
      obtain ⟨valueB, _, hB, hRest, rfl⟩ := mapM_cons_ok.mp h
      obtain ⟨valueA, rest, hA, hTail, rfl⟩ := mapM_cons_ok.mp hRest
      refine ⟨valueA :: valueB :: rest, ?_, List.Perm.swap _ _ _⟩
      exact mapM_cons_ok.mpr ⟨valueA, _, hA, mapM_cons_ok.mpr ⟨valueB, rest, hB, hTail, rfl⟩, rfl⟩
  | trans _ _ ihFirst ihSecond =>
      obtain ⟨middle, hMiddle, hFirst⟩ := ihFirst h
      obtain ⟨others, hOthers, hSecond⟩ := ihSecond hMiddle
      exact ⟨others, hOthers, hFirst.trans hSecond⟩

/-- A loop that parses and then updates parses the whole list first. -/
theorem foldlM_map_eq (parse : α → Except ε β) (update : γ → β → γ) (l : List α) (start : γ) :
    l.foldlM (fun acc a => (parse a).map (update acc)) start =
      (l.mapM parse).map (fun values => values.foldl update start) := by
  induction l generalizing start with
  | nil => rfl
  | cons a l ih =>
      rw [List.foldlM_cons, List.mapM_cons]
      cases hHead : parse a with
      | error e => rfl
      | ok value =>
          change l.foldlM (fun acc a => (parse a).map (update acc)) (update start value) = _
          rw [ih]
          cases l.mapM parse with
          | error e => rfl
          | ok rest => rfl

/-- Whatever the computation raises satisfies `P`. -/
def Raises (P : ε → Prop) (x : Except ε α) : Prop := ∀ e, x = .error e → P e

theorem raises_ok {P : ε → Prop} (a : α) : Raises P (.ok a : Except ε α) := fun _ h => by cases h

/-- A step that fails raises its own error. -/
theorem raises_error {P : ε → Prop} {e : ε} (h : P e) : Raises P (.error e : Except ε α) := by
  intro e' hEq
  cases hEq
  exact h

theorem raises_mapError {P : γ → Prop} {f : ε → γ} (h : ∀ e, P (f e)) (x : Except ε α) :
    Raises P (x.mapError f) := by
  cases x with
  | error e => exact raises_error (h e)
  | ok a => exact raises_ok a

/-- The errors of two steps are those of either. -/
theorem Raises.bind {P : ε → Prop} {x : Except ε α} (h : Raises P x) {f : α → Except ε β}
    (hNext : ∀ a, Raises P (f a)) : Raises P (x >>= f) := by
  cases x with
  | error e => exact raises_error (h e rfl)
  | ok a => exact hNext a

theorem Raises.map {P : ε → Prop} {x : Except ε α} (h : Raises P x) (f : α → β) :
    Raises P (x.map f) := by
  cases x with
  | error e => exact raises_error (h e rfl)
  | ok a => exact raises_ok (f a)

/-- Two computations of lists that raise the same exception, or succeed with
the same elements in some order. -/
def SameUpToOrder : Except ε (List α) → Except ε (List α) → Prop
  | .error first, .error second => first = second
  | .ok first, .ok second => first.Perm second
  | _, _ => False

/-- Two steps that do not depend on the order, one after the other. -/
theorem SameUpToOrder.bind {x y : Except ε (List α)} (h : SameUpToOrder x y)
    {f g : List α → Except ε (List β)}
    (hNext : ∀ first second, x = .ok first → first.Perm second →
      SameUpToOrder (f first) (g second)) :
    SameUpToOrder (x >>= f) (y >>= g) := by
  cases x with
  | error first =>
      cases y with
      | error second => exact h
      | ok second => exact h.elim
  | ok first =>
      cases y with
      | error second => exact h.elim
      | ok second => exact hNext first second rfl h

theorem SameUpToOrder.mapError {x y : Except ε (List α)} (h : SameUpToOrder x y) (f : ε → γ) :
    SameUpToOrder (x.mapError f) (y.mapError f) := by
  cases x with
  | error first =>
      cases y with
      | error second => exact congrArg f h
      | ok second => exact h.elim
  | ok first =>
      cases y with
      | error second => exact h.elim
      | ok second => exact h

/-- Parsing reordered lists that parse gives reordered results. -/
theorem SameUpToOrder.mapM {f : α → Except ε β} {first second : List α}
    (hPerm : first.Perm second) (h : ∀ a ∈ first, ∃ value, f a = .ok value) :
    SameUpToOrder (first.mapM f) (second.mapM f) := by
  obtain ⟨values, hValues⟩ := mapM_isOk_iff.mpr h
  obtain ⟨others, hOthers, hResult⟩ := mapM_perm hPerm hValues
  rw [hValues, hOthers]
  exact hResult

end Fallible
