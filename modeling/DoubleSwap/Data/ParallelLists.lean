import Mathlib.Data.List.Basic
import Mathlib.Tactic

/-! Two lists that are filled together and joined by position. Each turn adds
its mark to one list, and a value to the other if it has one. The joined list
is compared with the values paired with the marks of their own turns. -/
namespace ParallelLists

variable {τ α : Type}

/-- The two lists joined by position, from all turns. -/
def joined (turns : List (τ × Option α)) : List (τ × α) :=
  (turns.map Prod.fst).zip (turns.filterMap Prod.snd)

/-- Every value with the mark of its own turn. -/
def own (turns : List (τ × Option α)) : List (τ × α) :=
  turns.filterMap fun turn => turn.2.map fun value => (turn.1, value)

/-- No turn without a value comes before one with a value. -/
def ValuesFirst (turns : List (τ × Option α)) : Prop :=
  turns.Pairwise fun earlier later => later.2.isSome → earlier.2.isSome

@[simp] theorem own_nil : own ([] : List (τ × Option α)) = [] := rfl

@[simp] theorem own_cons_none (mark : τ) (turns : List (τ × Option α)) :
    own ((mark, none) :: turns) = own turns := rfl

@[simp] theorem own_cons_some (mark : τ) (value : α) (turns : List (τ × Option α)) :
    own ((mark, some value) :: turns) = (mark, value) :: own turns := rfl

theorem own_append (first second : List (τ × Option α)) :
    own (first ++ second) = own first ++ own second := List.filterMap_append

theorem map_snd_own (turns : List (τ × Option α)) :
    (own turns).map Prod.snd = turns.filterMap Prod.snd := by
  rw [own, List.map_filterMap]
  apply List.filterMap_congr
  intro turn _
  cases turn.2 <;> rfl

/-- There are as many own entries as values. -/
theorem length_own (turns : List (τ × Option α)) :
    (own turns).length = (turns.filterMap Prod.snd).length := by
  rw [← map_snd_own, List.length_map]

/-- An own entry is a turn with a value. -/
theorem mem_own {turns : List (τ × Option α)} {entry : τ × α} (h : entry ∈ own turns) :
    (entry.1, some entry.2) ∈ turns := by
  obtain ⟨⟨mark, value⟩, hTurn, hEntry⟩ := List.mem_filterMap.mp h
  cases value with
  | none => cases hEntry
  | some value =>
      cases hEntry
      exact hTurn

theorem own_eq_nil {turns : List (τ × Option α)} (h : ∀ turn ∈ turns, turn.2 = none) :
    own turns = [] := by
  rw [own, List.filterMap_eq_nil_iff]
  intro turn hTurn
  rw [h turn hTurn]
  rfl

/-- Values that come first keep their own marks. -/
theorem joined_eq_own {turns : List (τ × Option α)} (h : ValuesFirst turns) :
    joined turns = own turns := by
  induction turns with
  | nil => rfl
  | cons turn turns ih =>
      obtain ⟨mark, value⟩ := turn
      obtain ⟨hFirst, hRest⟩ := List.pairwise_cons.mp h
      cases value with
      | some value =>
          have hTail := ih hRest
          rw [joined] at hTail ⊢
          simpa [own] using hTail
      | none =>
          have hNone : ∀ turn ∈ turns, turn.2 = none := by
            intro turn hTurn
            by_contra hSome
            have hEarlier := hFirst turn hTurn (Option.isSome_iff_ne_none.mpr hSome)
            cases hEarlier
          have hValues : ((mark, (none : Option α)) :: turns).filterMap Prod.snd = [] := by
            rw [List.filterMap_eq_nil_iff]
            intro turn hTurn
            rcases List.mem_cons.mp hTurn with rfl | hTurn
            · rfl
            · exact hNone turn hTurn
          rw [joined, hValues, List.zip_nil_right, own_eq_nil]
          intro turn hTurn
          rcases List.mem_cons.mp hTurn with rfl | hTurn
          · rfl
          · exact hNone turn hTurn

/-- A turn without a value in the first part gives its mark, or that of another
turn of this part, to the first value of the second part. -/
theorem exists_shifted (first second : List (τ × Option α))
    (hGap : ∃ turn ∈ first, turn.2 = none) (hValue : ∃ turn ∈ second, turn.2 ≠ none) :
    ∃ (k : ℕ) (wrong right : τ) (value : α), (joined (first ++ second))[k]? = some (wrong, value) ∧
      (own (first ++ second))[k]? = some (right, value) ∧
      wrong ∈ first.map Prod.fst ∧ right ∈ second.map Prod.fst := by
  obtain ⟨gap, hGapMem, hGap⟩ := hGap
  obtain ⟨⟨mark, filled⟩, hFilledMem, hFilled⟩ := hValue
  -- The position is the number of values of the first part.
  have hShort : (first.filterMap Prod.snd).length < first.length := by
    rw [List.length_filterMap_eq_countP, List.countP_lt_length_iff]
    exact ⟨gap, hGapMem, by rw [hGap]; rfl⟩
  have hNonempty : own second ≠ [] := by
    intro hNone
    obtain ⟨value, rfl⟩ := Option.ne_none_iff_exists'.mp hFilled
    have hMem : (mark, value) ∈ own second := List.mem_filterMap.mpr ⟨_, hFilledMem, rfl⟩
    rw [hNone] at hMem
    cases hMem
  obtain ⟨⟨right, value⟩, others, hOwn⟩ := List.exists_cons_of_ne_nil hNonempty
  have hValues : second.filterMap Prod.snd = value :: others.map Prod.snd := by
    rw [← map_snd_own, hOwn, List.map_cons]
  refine ⟨(first.filterMap Prod.snd).length, first[(first.filterMap Prod.snd).length].1, right,
    value, ?_, ?_, ?_, ?_⟩
  · rw [joined, List.getElem?_zip_eq_some, List.map_append, List.filterMap_append]
    constructor
    · rw [List.getElem?_append_left (by rwa [List.length_map]), List.getElem?_map,
        List.getElem?_eq_getElem hShort]
      rfl
    · rw [List.getElem?_append_right (Nat.le_refl _), Nat.sub_self, hValues]
      rfl
  · rw [own_append, List.getElem?_append_right (length_own first).le, length_own, Nat.sub_self,
      hOwn]
    rfl
  · exact List.mem_map_of_mem (List.getElem_mem hShort)
  · have hMem : (right, value) ∈ own second := hOwn ▸ List.mem_cons_self
    exact List.mem_map_of_mem (f := Prod.fst) (mem_own hMem)

end ParallelLists
