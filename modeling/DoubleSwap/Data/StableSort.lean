import DoubleSwap.Data.Fallible
import Mathlib.Data.List.Sort

/-! Stable sorting by a key, as `sorted(l, key=...)` does it. Elements with
equal keys keep their order of arrival, so the result is determined by the
keys alone only where the keys are distinct. -/
namespace StableSort

variable {α β κ τ ε : Type} [LinearOrder κ] [LinearOrder τ]

/-- Sort by `key`, keeping the order of arrival among equal keys. -/
def sortBy (key : α → κ) (l : List α) : List α := l.insertionSort (fun a b => key a ≤ key b)

/-- The keys are computed first, in order of arrival; the first failing key
fails the whole call. -/
def sortByM (key : α → Except ε κ) (l : List α) : Except ε (List α) := do
  let keyed ← l.mapM fun a => (key a).map fun k => (k, a)
  return (sortBy Prod.fst keyed).map Prod.snd

instance totalByKey (key : α → κ) : Std.Total (fun a b => key a ≤ key b) :=
  ⟨fun a b => le_total (key a) (key b)⟩

instance transByKey (key : α → κ) : IsTrans α (fun a b => key a ≤ key b) :=
  ⟨fun _ _ _ => le_trans⟩

theorem perm_sortBy (key : α → κ) (l : List α) : (sortBy key l).Perm l :=
  List.perm_insertionSort _ l

@[simp] theorem mem_sortBy {key : α → κ} {l : List α} {a : α} : a ∈ sortBy key l ↔ a ∈ l :=
  (perm_sortBy key l).mem_iff

theorem pairwise_sortBy (key : α → κ) (l : List α) :
    (sortBy key l).Pairwise (fun a b => key a ≤ key b) :=
  List.pairwise_insertionSort _ l

theorem sortBy_map (key : β → κ) (f : α → β) (l : List α) :
    sortBy key (l.map f) = (sortBy (fun a => key (f a)) l).map f :=
  (List.map_insertionSort _ _ f l (fun _ _ _ _ => Iff.rfl)).symm

/-- The elements of each key are left in their order of arrival. -/
theorem filter_sortBy (key : α → κ) (l : List α) (k : κ) :
    (sortBy key l).filter (fun a => key a = k) = l.filter (fun a => key a = k) := by
  have hEqualKeys : (l.filter fun a => key a = k).Pairwise (fun a b => key a ≤ key b) := by
    refine List.Pairwise.imp_of_mem ?_ (List.pairwise_of_forall fun _ _ => trivial)
    intro a b ha hb _
    have hFirst := of_decide_eq_true (List.mem_filter.mp ha).2
    have hSecond := of_decide_eq_true (List.mem_filter.mp hb).2
    exact (hFirst.trans hSecond.symm).le
  have hSublist : (l.filter fun a => key a = k).Sublist (sortBy key l) :=
    List.sublist_insertionSort hEqualKeys List.filter_sublist
  have hKept := hSublist.filter (fun a => key a = k)
  rw [List.filter_filter] at hKept
  simp only [Bool.and_self] at hKept
  exact (hKept.eq_of_length ((perm_sortBy key l).filter _).length_eq.symm).symm

/-- The first element of the sorted list that passes a test has the least key
of all that pass it. -/
theorem find?_sortBy {key : α → κ} {p : α → Bool} {l : List α} {a : α}
    (h : (sortBy key l).find? p = some a) : ∀ b ∈ l, p b = true → key a ≤ key b := by
  intro b hb hp
  obtain ⟨_, before, after, hSplit, hBefore⟩ := List.find?_eq_some_iff_append.mp h
  have hOrdered := pairwise_sortBy key l
  have hMem : b ∈ before ++ a :: after := hSplit ▸ mem_sortBy.mpr hb
  rw [hSplit, List.pairwise_append, List.pairwise_cons] at hOrdered
  rcases List.mem_append.mp hMem with hEarly | hLate
  · have hFails := hBefore b hEarly
    rw [hp] at hFails
    cases hFails
  · rcases List.mem_cons.mp hLate with rfl | hAfter
    · exact le_rfl
    · exact hOrdered.2.1.1 b hAfter

/-- What `sorted` promises: the same elements, in the order of the keys, and
in the order of arrival among equal keys. -/
structure IsStableSort (key : α → κ) (l sorted : List α) : Prop where
  perm : sorted.Perm l
  ordered : sorted.Pairwise fun a b => key a ≤ key b
  stable : ∀ k, sorted.filter (fun a => key a = k) = l.filter (fun a => key a = k)

theorem isStableSort_sortBy (key : α → κ) (l : List α) : IsStableSort key l (sortBy key l) :=
  ⟨perm_sortBy key l, pairwise_sortBy key l, filter_sortBy key l⟩

/-- With pairwise distinct keys the result depends on the elements only, not
on the order in which they arrived. -/
theorem sortBy_eq_of_perm {key : α → κ} {l₁ l₂ : List α} (hPerm : l₁.Perm l₂)
    (hDistinct : l₁.Pairwise (fun a b => key a ≠ key b)) : sortBy key l₁ = sortBy key l₂ := by
  have hSorted : (sortBy key l₁).Perm (sortBy key l₂) :=
    (perm_sortBy key l₁).trans (hPerm.trans (perm_sortBy key l₂).symm)
  have hSymm : Std.Symm (fun a b => key a ≠ key b) := ⟨fun _ _ h => h.symm⟩
  have hInjective : ∀ a ∈ l₁, ∀ b ∈ l₁, key a = key b → a = b := by
    intro a ha b hb hKey
    by_contra hne
    exact hDistinct.forall ha hb hne hKey
  refine List.Perm.eq_of_pairwise ?_ (pairwise_sortBy key l₁) (pairwise_sortBy key l₂) hSorted
  intro a b ha hb hab hba
  exact hInjective a (mem_sortBy.mp ha) b (hPerm.mem_iff.mpr (mem_sortBy.mp hb))
    (le_antisymm hab hba)

/-- Two elements are in the right order for `value` after sorting by `key`:
a strict disagreement of the two orders is excluded, and so is a tie of the
keys that the order of arrival breaks the wrong way. -/
def Agrees (key : α → κ) (value : α → τ) (first second : α) : Prop :=
  (value first < value second → key first ≤ key second) ∧
    (value second < value first → key second < key first)

private theorem pairwise_orderedInsert {key : α → κ} {value : α → τ} {a : α} {l : List α}
    (hSorted : l.Pairwise (fun b c => key b ≤ key c))
    (hValues : l.Pairwise (fun b c => value b ≤ value c))
    (hAgrees : ∀ b ∈ l, Agrees key value a b) :
    (l.orderedInsert (fun b c => key b ≤ key c) a).Pairwise (fun b c => value b ≤ value c) := by
  induction l with
  | nil => simp
  | cons b l ih =>
      rw [List.pairwise_cons] at hSorted hValues
      obtain ⟨hUp, hDown⟩ := hAgrees b List.mem_cons_self
      by_cases hKey : key a ≤ key b
      · rw [List.orderedInsert_cons, if_pos hKey, List.pairwise_cons]
        refine ⟨?_, List.pairwise_cons.mpr hValues⟩
        have hHead : value a ≤ value b := not_lt.mp fun h => absurd hKey (not_le.mpr (hDown h))
        intro c hc
        rcases List.mem_cons.mp hc with rfl | hc
        · exact hHead
        · exact hHead.trans (hValues.1 c hc)
      · rw [List.orderedInsert_cons, if_neg hKey, List.pairwise_cons]
        refine ⟨?_, ih hSorted.2 hValues.2 (fun c hc => hAgrees c (List.mem_cons_of_mem _ hc))⟩
        intro c hc
        rcases (List.mem_orderedInsert _).mp hc with rfl | hc
        · exact not_lt.mp fun h => hKey (hUp h)
        · exact hValues.1 c hc

/-- In a list sorted by `key` and by `value`, a smaller key means a smaller
or equal value, wherever the two elements stand. -/
private theorem value_le_of_key_lt {key : α → κ} {value : α → τ} {s : List α}
    (hKeys : s.Pairwise (fun a b => key a ≤ key b))
    (hValues : s.Pairwise (fun a b => value a ≤ value b)) {a b : α} (ha : a ∈ s) (hb : b ∈ s)
    (hKey : key a < key b) : value a ≤ value b := by
  let Ordered (x y : α) : Prop :=
    (key x < key y → value x ≤ value y) ∧ (key y < key x → value y ≤ value x)
  have hSymm : Std.Symm Ordered := ⟨fun _ _ h => ⟨h.2, h.1⟩⟩
  have hPairs : s.Pairwise Ordered := by
    refine (hKeys.and hValues).imp ?_
    rintro x y ⟨hxy, hValue⟩
    exact ⟨fun _ => hValue, fun h => absurd hxy (not_le.mpr h)⟩
  have hne : a ≠ b := by
    rintro rfl
    exact lt_irrefl _ hKey
  exact (hPairs.forall ha hb hne).1 hKey

/-- Sorting by `key` also sorts by `value` exactly when the two agree on
every pair, taken in the order of arrival. -/
theorem pairwise_sortBy_iff (key : α → κ) (value : α → τ) (l : List α) :
    (sortBy key l).Pairwise (fun a b => value a ≤ value b) ↔ l.Pairwise (Agrees key value) := by
  constructor
  · intro hValues
    rw [List.pairwise_iff_forall_sublist]
    intro a b hPair
    rcases le_or_gt (key a) (key b) with hKey | hKey
    · have hStable : [a, b].Sublist (sortBy key l) := List.pair_sublist_insertionSort hKey hPair
      have hOrder := List.pairwise_iff_forall_sublist.mp hValues hStable
      exact ⟨fun _ => hKey, fun h => absurd hOrder (not_le.mpr h)⟩
    · have ha : a ∈ l := hPair.subset (by simp)
      have hb : b ∈ l := hPair.subset (by simp)
      have hOrder := value_le_of_key_lt (pairwise_sortBy key l) hValues
        (mem_sortBy.mpr hb) (mem_sortBy.mpr ha) hKey
      exact ⟨fun h => absurd hOrder (not_le.mpr h), fun _ => hKey⟩
  · intro hAgrees
    induction l with
    | nil => exact List.Pairwise.nil
    | cons a l ih =>
        rw [List.pairwise_cons] at hAgrees
        exact pairwise_orderedInsert (pairwise_sortBy key l) (ih hAgrees.2)
          (fun b hb => hAgrees.1 b (mem_sortBy.mp hb))

/-- Where every key is defined, the fallible sort is the plain one. -/
theorem sortByM_eq_ok {key : α → Except ε κ} {value : α → κ} {l : List α}
    (h : ∀ a ∈ l, key a = .ok (value a)) : sortByM key l = .ok (sortBy value l) := by
  have hKeyed : (l.mapM fun a => (key a).map fun k => (k, a)) =
      .ok (l.map fun a => (value a, a)) :=
    Fallible.mapM_ok (fun a ha => by rw [h a ha]; rfl)
  rw [sortByM, hKeyed]
  change Except.ok ((sortBy Prod.fst (l.map fun a => (value a, a))).map Prod.snd) = _
  rw [sortBy_map, List.map_map]
  simp [Function.comp_def]

end StableSort
