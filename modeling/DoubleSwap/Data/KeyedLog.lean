import Mathlib.Tactic
import Mathlib.Logic.Function.Basic

/-! Append-only logs of assignments to keys. The last entry of a key decides
its value, so the log determines a partial map; a log whose entries are marked
as introducing a key or not says where its first entries can stand for the map. -/
namespace KeyedLog

variable {κ ν : Type} [DecidableEq κ]

/-- The map after an entry. An entry without a value removes its key. -/
def assign (m : κ → Option ν) (entry : κ × Option ν) : κ → Option ν :=
  Function.update m entry.1 entry.2

/-- The map that a log leads to. -/
def replay (log : List (κ × Option ν)) : κ → Option ν := log.foldl assign fun _ => none

@[simp] theorem replay_concat (log : List (κ × Option ν)) (entry : κ × Option ν) :
    replay (log ++ [entry]) = Function.update (replay log) entry.1 entry.2 := by
  rw [replay, List.foldl_append]
  rfl

/-- The last entry of a key decides. -/
theorem replay_eq_getLast (log : List (κ × Option ν)) (k : κ) :
    replay log k = (log.filter (fun entry => entry.1 = k)).getLast?.bind Prod.snd := by
  induction log using List.reverseRecOn with
  | nil => rfl
  | append_singleton log entry ih =>
      rw [replay_concat, List.filter_append]
      by_cases hKey : entry.1 = k
      · subst hKey
        simp
      · rw [Function.update_of_ne (Ne.symm hKey), ih]
        simp [hKey]

theorem exists_mem_of_replay {log : List (κ × Option ν)} {k : κ} (h : replay log k ≠ none) :
    ∃ entry ∈ log, entry.1 = k := by
  by_contra hAbsent
  apply h
  have hEmpty : log.filter (fun entry => entry.1 = k) = [] := by
    rw [List.filter_eq_nil_iff]
    intro entry hEntry hKey
    exact hAbsent ⟨entry, hEntry, of_decide_eq_true hKey⟩
  rw [replay_eq_getLast, hEmpty]
  rfl

/-- A list of the pairs of a finite map. -/
structure Represents (pairs : List (κ × ν)) (m : κ → Option ν) : Prop where
  nodupKeys : (pairs.map Prod.fst).Nodup
  mem_iff : ∀ k v, (k, v) ∈ pairs ↔ m k = some v

namespace Represents

variable {pairs before after : List (κ × ν)} {m : κ → Option ν} {k : κ} {v : ν}

omit [DecidableEq κ] in
theorem nil : Represents ([] : List (κ × ν)) (fun _ => none) :=
  ⟨List.nodup_nil, fun _ _ => by simp⟩

omit [DecidableEq κ] in
theorem nodup (h : Represents pairs m) : pairs.Nodup := h.nodupKeys.of_map

omit [DecidableEq κ] in
theorem not_mem_keys (h : Represents pairs m) (hNone : m k = none) :
    k ∉ pairs.map Prod.fst := by
  intro hMem
  obtain ⟨⟨k', v'⟩, hPair, rfl⟩ := List.mem_map.mp hMem
  rw [(h.mem_iff k' v').mp hPair] at hNone
  cases hNone

/-- Put a pair with a new key anywhere into the list. -/
theorem insert (h : Represents (before ++ after) m) (hNew : m k = none) :
    Represents (before ++ (k, v) :: after) (Function.update m k (some v)) := by
  have hPerm : (before ++ (k, v) :: after).Perm ((k, v) :: (before ++ after)) :=
    List.perm_middle
  constructor
  · rw [(hPerm.map Prod.fst).nodup_iff, List.map_cons, List.nodup_cons]
    exact ⟨h.not_mem_keys hNew, h.nodupKeys⟩
  · intro k' v'
    rw [hPerm.mem_iff, List.mem_cons, h.mem_iff]
    by_cases hKey : k' = k
    · subst hKey
      rw [Function.update_self, hNew]
      simp [eq_comm]
    · rw [Function.update_of_ne hKey]
      simp [hKey]

/-- Take a pair out of the list. -/
theorem erase (h : Represents (before ++ (k, v) :: after) m) :
    Represents (before ++ after) (Function.update m k none) := by
  have hPerm : (before ++ (k, v) :: after).Perm ((k, v) :: (before ++ after)) :=
    List.perm_middle
  have hNodup := (hPerm.map Prod.fst).nodup_iff.mp h.nodupKeys
  rw [List.map_cons, List.nodup_cons] at hNodup
  constructor
  · exact hNodup.2
  · intro k' v'
    by_cases hKey : k' = k
    · subst hKey
      rw [Function.update_self]
      constructor
      · intro hMem
        exact absurd (List.mem_map_of_mem hMem) hNodup.1
      · intro hNone
        cases hNone
    · rw [Function.update_of_ne hKey, ← h.mem_iff, hPerm.mem_iff, List.mem_cons]
      simp [hKey]

omit [DecidableEq κ] in
/-- Two lists of the pairs of one map have the same elements. -/
theorem perm {others : List (κ × ν)} (h : Represents pairs m) (h' : Represents others m) :
    pairs.Perm others := by
  rw [List.perm_ext_iff_of_nodup h.nodup h'.nodup]
  intro pair
  rw [h.mem_iff, h'.mem_iff]

end Represents

/-- An entry with a mark that tells whether it introduces its key. -/
abbrev Marked (κ ν : Type) := (κ × Option ν) × Bool

/-- A marked entry brings a value for a key without one; an unmarked entry
concerns a key with a value, which it removes or repeats. -/
def Legal (m : κ → Option ν) (op : Marked κ ν) : Prop :=
  if op.2 then m op.1.1 = none ∧ op.1.2 ≠ none
  else m op.1.1 ≠ none ∧ (op.1.2 = none ∨ op.1.2 = m op.1.1)

/-- Every entry is legal for the map that the entries before it lead to. -/
def LegalLog (ops : List (Marked κ ν)) : Prop :=
  ∀ before op after, ops = before ++ op :: after → Legal (replay (before.map Prod.fst)) op

theorem LegalLog.nil : LegalLog ([] : List (Marked κ ν)) := by
  intro before op after h
  simp at h

theorem LegalLog.concat {ops : List (Marked κ ν)} (h : LegalLog ops) {op : Marked κ ν}
    (hOp : Legal (replay (ops.map Prod.fst)) op) : LegalLog (ops ++ [op]) := by
  intro before found after hSplit
  cases after using List.reverseRecOn with
  | nil =>
      obtain ⟨hInit, hLast⟩ := List.append_inj' hSplit rfl
      cases hLast
      exact hInit ▸ hOp
  | append_singleton after last =>
      rw [← List.cons_append, ← List.append_assoc] at hSplit
      exact h before found after (List.append_inj' hSplit rfl).1

theorem LegalLog.of_append {first second : List (Marked κ ν)} (h : LegalLog (first ++ second)) :
    LegalLog first := by
  intro before op after hSplit
  apply h before op (after ++ second)
  rw [hSplit]
  simp

/-- A log that only introduces keys lists the pairs of its map. -/
theorem LegalLog.represents {ops : List (Marked κ ν)} (h : LegalLog ops)
    (hNew : ∀ op ∈ ops, op.2 = true) :
    ∃ pairs : List (κ × ν), ops.map Prod.fst = pairs.map (fun pair => (pair.1, some pair.2)) ∧
      Represents pairs (replay (ops.map Prod.fst)) := by
  induction ops using List.reverseRecOn with
  | nil => exact ⟨[], rfl, Represents.nil⟩
  | append_singleton ops op ih =>
      obtain ⟨pairs, hPairs, hRepresents⟩ :=
        ih h.of_append (fun op hOp => hNew op (List.mem_append_left _ hOp))
      have hLegal := h ops op [] rfl
      rw [Legal, if_pos (hNew op (by simp))] at hLegal
      obtain ⟨hAbsent, hValue⟩ := hLegal
      obtain ⟨v, hv⟩ := Option.ne_none_iff_exists'.mp hValue
      refine ⟨pairs ++ [(op.1.1, v)], ?_, ?_⟩
      · rw [List.map_append, List.map_append, hPairs, List.map_singleton, List.map_singleton, ← hv]
      · rw [List.map_append, List.map_singleton, replay_concat, hv]
        apply Represents.insert _ hAbsent
        rw [List.append_nil]
        exact hRepresents

/-- The first entries of a legal log list the pairs of the map that the whole
log leads to exactly when they only introduce keys and the entries after them
have no effect in sum. -/
theorem take_perm_iff {ops : List (Marked κ ν)} (hLegal : LegalLog ops) (n : Nat)
    {pairs : List (κ × ν)} (hPairs : Represents pairs (replay (ops.map Prod.fst))) :
    ((ops.take n).map Prod.fst).Perm (pairs.map fun pair => (pair.1, some pair.2)) ↔
      (∀ op ∈ ops.take n, op.2 = true) ∧
        replay ((ops.take n).map Prod.fst) = replay (ops.map Prod.fst) := by
  have hTake : LegalLog (ops.take n) := by
    rw [← List.take_append_drop n ops] at hLegal
    exact hLegal.of_append
  have hInjective : Function.Injective fun pair : κ × ν => (pair.1, some pair.2) := by
    intro a b h
    simp only [Prod.mk.injEq, Option.some.injEq] at h
    exact Prod.ext h.1 h.2
  constructor
  · intro hPerm
    have hKeys : ((ops.take n).map fun op => op.1.1).Nodup := by
      have hMapped := hPerm.map Prod.fst
      rw [List.map_map, List.map_map] at hMapped
      exact hMapped.nodup_iff.mpr hPairs.nodupKeys
    have hNew : ∀ op ∈ ops.take n, op.2 = true := by
      intro op hOp
      obtain ⟨before, after, hSplit⟩ := List.append_of_mem hOp
      by_contra hOld
      have hLegalOp := hTake before op after hSplit
      rw [Legal, if_neg hOld] at hLegalOp
      obtain ⟨entry, hEntry, hKey⟩ := exists_mem_of_replay hLegalOp.1
      obtain ⟨earlier, hEarlier, rfl⟩ := List.mem_map.mp hEntry
      rw [hSplit, List.map_append, List.map_cons, List.nodup_append] at hKeys
      exact hKeys.2.2 _ (List.mem_map_of_mem hEarlier) _ List.mem_cons_self hKey
    refine ⟨hNew, ?_⟩
    obtain ⟨first, hFirst, hRepresents⟩ := hTake.represents hNew
    rw [hFirst] at hPerm
    have hSame : first.Perm pairs := (List.map_perm_map_iff hInjective).mp hPerm
    funext k
    apply Option.ext
    intro v
    rw [← hRepresents.mem_iff, ← hPairs.mem_iff]
    exact hSame.mem_iff
  · intro h
    obtain ⟨first, hFirst, hRepresents⟩ := hTake.represents h.1
    rw [h.2] at hRepresents
    rw [hFirst]
    exact (hRepresents.perm hPairs).map _

end KeyedLog
