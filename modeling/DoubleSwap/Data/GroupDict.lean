import DoubleSwap.Data.StableSort

/-! A dictionary of lists that is filled by appending, as a dictionary with
an empty list for every missing key is. The keys are kept in order of their
first use and are distinct by construction. -/

/-- Groups in order of first use. No key has two groups. -/
structure GroupDict (κ α : Type) where
  entries : List (κ × List α)
  nodupKeys : (entries.map Prod.fst).Nodup

namespace GroupDict

variable {κ α : Type} [DecidableEq κ]

/-- The dictionary before the first use. -/
def empty : GroupDict κ α := ⟨[], List.nodup_nil⟩

def keys (d : GroupDict κ α) : List κ := d.entries.map Prod.fst

/-- `d[key]`, with the empty list for a missing key. -/
def get (d : GroupDict κ α) (key : κ) : List α := (d.entries.lookup key).getD []

def appendEntries (key : κ) (value : α) : List (κ × List α) → List (κ × List α)
  | [] => [(key, [value])]
  | (other, group) :: rest =>
      if other = key then (other, group ++ [value]) :: rest
      else (other, group) :: appendEntries key value rest

/-- A key is there if it was, or is the new one. -/
theorem mem_keys_appendEntries (key : κ) (value : α) (entries : List (κ × List α)) (other : κ) :
    other ∈ (appendEntries key value entries).map Prod.fst ↔
      other = key ∨ other ∈ entries.map Prod.fst := by
  induction entries with
  | nil => simp [appendEntries]
  | cons first rest ih =>
      obtain ⟨name, group⟩ := first
      by_cases hName : name = key
      · simp only [appendEntries, hName, ↓reduceIte, List.map_cons, List.mem_cons]
        tauto
      · simp only [appendEntries, hName, ↓reduceIte, List.map_cons, List.mem_cons, ih]
        tauto

/-- No key is there twice. -/
theorem nodup_appendEntries (key : κ) (value : α) (entries : List (κ × List α))
    (h : (entries.map Prod.fst).Nodup) :
    ((appendEntries key value entries).map Prod.fst).Nodup := by
  induction entries with
  | nil => simp [appendEntries]
  | cons first rest ih =>
      obtain ⟨name, group⟩ := first
      rw [List.map_cons, List.nodup_cons] at h
      by_cases hName : name = key
      · simpa only [appendEntries, hName, ↓reduceIte, List.map_cons, List.nodup_cons]
          using hName ▸ h
      · simp only [appendEntries, hName, ↓reduceIte, List.map_cons, List.nodup_cons]
        refine ⟨?_, ih h.2⟩
        rw [mem_keys_appendEntries]
        rintro (hEq | hMem)
        · exact hName hEq
        · exact h.1 hMem

/-- `d[key].append(value)`. -/
def append (d : GroupDict κ α) (key : κ) (value : α) : GroupDict κ α :=
  ⟨appendEntries key value d.entries, nodup_appendEntries key value d.entries d.nodupKeys⟩

/-- Append the pairs one after the other. -/
def appendAll (d : GroupDict κ α) (pairs : List (κ × α)) : GroupDict κ α :=
  pairs.foldl (fun d pair => d.append pair.1 pair.2) d

omit [DecidableEq κ] in
@[simp] theorem keys_empty : (empty : GroupDict κ α).keys = [] := rfl

theorem mem_keys_append (d : GroupDict κ α) (key : κ) (value : α) (other : κ) :
    other ∈ (d.append key value).keys ↔ other = key ∨ other ∈ d.keys :=
  mem_keys_appendEntries key value d.entries other

/-- The value goes to the end of its own group. -/
theorem get_append (d : GroupDict κ α) (key : κ) (value : α) (other : κ) :
    (d.append key value).get other = d.get other ++ if other = key then [value] else [] := by
  obtain ⟨entries, hNodup⟩ := d
  simp only [append, get]
  clear hNodup
  induction entries with
  | nil =>
      by_cases hOther : other = key
      · simp [appendEntries, hOther]
      · simp [appendEntries, hOther, List.lookup_cons, beq_eq_false_iff_ne.mpr hOther]
  | cons first rest ih =>
      obtain ⟨name, group⟩ := first
      by_cases hName : name = key
      · by_cases hOther : other = key
        · simp [appendEntries, hName, hOther]
        · simp [appendEntries, hName, hOther, List.lookup_cons, beq_eq_false_iff_ne.mpr hOther]
      · by_cases hFirst : other = name
        · have hOther : other ≠ key := hFirst ▸ hName
          simp [appendEntries, hName, hFirst]
        · simp only [appendEntries, hName, ↓reduceIte, List.lookup_cons,
            beq_eq_false_iff_ne.mpr hFirst]
          exact ih

theorem mem_keys_of_mem_get {d : GroupDict κ α} {key : κ} {value : α} (h : value ∈ d.get key) :
    key ∈ d.keys := by
  cases hLookup : d.entries.lookup key with
  | none =>
      rw [get, hLookup] at h
      cases h
  | some group =>
      obtain ⟨before, after, hEntries, _⟩ := List.lookup_eq_some_iff.mp hLookup
      rw [keys, hEntries]
      simp

@[simp] theorem get_empty (key : κ) : (empty : GroupDict κ α).get key = [] := rfl

/-- A group holds the values of its own pairs, in order of arrival. -/
theorem get_appendAll (d : GroupDict κ α) (pairs : List (κ × α)) (key : κ) :
    (d.appendAll pairs).get key =
      d.get key ++ (pairs.filter (fun pair => pair.1 = key)).map Prod.snd := by
  induction pairs generalizing d with
  | nil => simp [appendAll]
  | cons first rest ih =>
      change ((d.append first.1 first.2).appendAll rest).get key = _
      rw [ih, get_append, List.append_assoc]
      by_cases hKey : first.1 = key
      · simp [hKey]
      · simp [hKey, Ne.symm hKey]

/-- The keys of several values, by induction on them. -/
theorem mem_keys_appendAll (d : GroupDict κ α) (pairs : List (κ × α)) (key : κ) :
    key ∈ (d.appendAll pairs).keys ↔ key ∈ d.keys ∨ key ∈ pairs.map Prod.fst := by
  induction pairs generalizing d with
  | nil => simp [appendAll]
  | cons first rest ih =>
      change key ∈ ((d.append first.1 first.2).appendAll rest).keys ↔ _
      rw [ih, mem_keys_append, List.map_cons, List.mem_cons]
      tauto

theorem appendAll_append (d : GroupDict κ α) (first second : List (κ × α)) :
    d.appendAll (first ++ second) = (d.appendAll first).appendAll second :=
  List.foldl_append

omit [DecidableEq κ] in
/-- The sorted key list depends on the set of keys only. -/
theorem sorted_keys_eq [LinearOrder κ] {d e : GroupDict κ α}
    (h : ∀ key, key ∈ d.keys ↔ key ∈ e.keys) :
    StableSort.sortBy id d.keys = StableSort.sortBy id e.keys := by
  have hPerm : d.keys.Perm e.keys :=
    (List.perm_ext_iff_of_nodup d.nodupKeys e.nodupKeys).mpr h
  exact StableSort.sortBy_eq_of_perm hPerm (d.nodupKeys.imp (fun hne => hne))

/-- Groups taken key after key hold every pair of these keys once. -/
theorem flatMap_groups_perm {keys : List κ} (hKeys : keys.Nodup) (pairs : List (κ × α)) :
    (keys.flatMap fun key => pairs.filter (fun pair => pair.1 = key)).Perm
      (pairs.filter (fun pair => pair.1 ∈ keys)) := by
  induction keys with
  | nil => simp
  | cons key keys ih =>
      obtain ⟨hFresh, hRest⟩ := List.nodup_cons.mp hKeys
      have hOwn : (pairs.filter fun pair => pair.1 ∈ key :: keys).filter
          (fun pair => pair.1 = key) = pairs.filter (fun pair => pair.1 = key) := by
        rw [List.filter_filter]
        apply List.filter_congr
        intro pair _
        simp only [List.mem_cons, Bool.decide_or, Bool.and_or_distrib_left, Bool.and_self]
        exact Bool.or_eq_left_iff_imp.mpr fun h => (Bool.and_eq_true_iff.mp h).1
      have hOthers : (pairs.filter fun pair => pair.1 ∈ key :: keys).filter
          (fun pair => !decide (pair.1 = key)) = pairs.filter (fun pair => pair.1 ∈ keys) := by
        rw [List.filter_filter]
        apply List.filter_congr
        intro pair _
        by_cases hPair : pair.1 = key
        · simp [hPair, hFresh]
        · simp [hPair]
      have hSplit := List.filter_append_perm (fun pair : κ × α => pair.1 = key)
        (pairs.filter fun pair => pair.1 ∈ key :: keys)
      rw [hOwn, hOthers] at hSplit
      rw [List.flatMap_cons]
      exact ((ih hRest).append_left _).trans hSplit

end GroupDict
