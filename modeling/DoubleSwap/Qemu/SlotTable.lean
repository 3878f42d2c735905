import DoubleSwap.Qemu.SlotLog
import DoubleSwap.Analyser.Translation

/-! The slot table that the analyser reads from the slot log. It takes the
first three records for slots, whatever they record; the live slots are decided
by the last record of each address. -/
namespace Qemu

open Text Analyser KeyedLog Transition

/-- The file, as the analyser reads it. -/
def hgfileText (kml : KVMMemoryListener) : TextFile := ⟨kml.hgfile.map SlotRecord.line, true⟩

/-- What the analyser makes of a record. -/
def SlotRecord.pte (r : SlotRecord) : HostGuestPte :=
  ⟨r.userspaceAddr.toNat, r.guestPhysAddr.toNat, r.memorySize.toNat, r.addr.toNat⟩

/-- Host address, guest address and size. -/
abbrev Triple := Nat × Nat × Nat

def tableTriple (entry : HostGuestPte) : Triple :=
  (entry.userspaceAddr, entry.guestPhysAddr, entry.size)

def KVMSlot.triple (slot : KVMSlot) : Triple :=
  (slot.ram.toNat, slot.startAddr.toNat, slot.memorySize.toNat)

def liveSlots (kml : KVMMemoryListener) : List KVMSlot := kml.slots.filter fun slot => slot.Live

theorem words_line (r : SlotRecord) :
    words r.line = [decimal r.userspaceAddr.toNat, decimal r.guestPhysAddr.toNat,
      decimal r.memorySize.toNat, decimal r.addr.toNat] := by
  have hWord (n : Nat) : IsWord (decimal n) := (isNumeral_decimal n).isWord
  rw [SlotRecord.line, words_word_space (hWord _) (by decide),
    words_word_space (hWord _) (by decide), words_word_space (hWord _) (by decide),
    words_word_space (hWord _) (by decide), words_nil]

theorem cUlong_toNat (n : UInt64) : cUlong n.toNat = n.toNat := by
  have hLt := n.toNat_lt
  rw [cUlong]
  omega

theorem parseSlot_line (r : SlotRecord) : parseSlot r.line = .ok (some r.pte) := by
  simp only [parseSlot, words_line, int, parseInt_decimal, cUlong_toNat, bind, Except.bind]
  rfl

theorem readSlots_lines (records : List SlotRecord) (entries : List HostGuestPte) :
    readSlots true entries (records.map SlotRecord.line) =
      .ok (entries ++ (records.take (3 - entries.length)).map SlotRecord.pte) := by
  induction records generalizing entries with
  | nil => simp [readSlots]
  | cons r records ih =>
      rw [List.map_cons, readSlots]
      by_cases hFull : 3 ≤ entries.length
      · rw [if_pos hFull, Nat.sub_eq_zero_of_le hFull]
        simp
      · have hRoom : 3 - entries.length = (3 - (entries ++ [r.pte]).length) + 1 := by
          rw [List.length_append, List.length_singleton]
          omega
        rw [if_neg hFull, parseSlot_line, hRoom, List.take_succ_cons, List.map_cons]
        change readSlots true (entries ++ [r.pte]) (records.map SlotRecord.line) = _
        rw [ih, List.append_assoc]
        rfl

/-- The table consists of the first three records, sorted. -/
theorem getHgpte_hgfileText (kml : KVMMemoryListener) :
    getHgpte (some (hgfileText kml)) =
      (sortSlots ((kml.hgfile.take 3).map SlotRecord.pte), []) := by
  simp only [getHgpte, hgfileText, readSlots_lines]
  rfl

/-- The assignment behind a triple of the table. -/
def tripleEntry (triple : Triple) : UInt64 × Option Mapping :=
  (.ofNat triple.2.1,
    if UInt64.ofNat triple.2.2 = 0 then none else some (.ofNat triple.1, .ofNat triple.2.2))

/-- The triple of an assignment that is not a removal. -/
def entryTriple (entry : UInt64 × Option Mapping) : Triple :=
  match entry with
  | (guestPhysAddr, some mapping) => (mapping.1.toNat, guestPhysAddr.toNat, mapping.2.toNat)
  | (guestPhysAddr, none) => (0, guestPhysAddr.toNat, 0)

theorem tripleEntry_pte (r : SlotRecord) : tripleEntry (tableTriple r.pte) = r.entry := by
  simp [tripleEntry, tableTriple, SlotRecord.pte, SlotRecord.entry]

theorem entryTriple_entry {r : SlotRecord} (h : r.entry.2 ≠ none) :
    entryTriple r.entry = tableTriple r.pte := by
  by_cases hSize : r.memorySize = 0
  · exact absurd (if_pos hSize) h
  · simp [SlotRecord.entry, hSize, entryTriple, tableTriple, SlotRecord.pte]

theorem livePairs_eq_map (slots : List KVMSlot) :
    livePairs slots = (slots.filter fun slot => slot.Live).map
      fun slot => (slot.startAddr, (slot.ram, slot.memorySize)) := by
  induction slots with
  | nil => rfl
  | cons slot slots ih =>
      rw [livePairs] at ih
      by_cases hLive : slot.Live
      · rw [livePairs, List.filterMap_cons_some (pair_of_live hLive), ih,
          List.filter_cons_of_pos (by simpa using hLive), List.map_cons]
      · rw [livePairs, List.filterMap_cons_none (pair_of_not_live (not_not.mp hLive)), ih,
          List.filter_cons_of_neg (by simpa using hLive)]

/-- Triples and assignments can be exchanged: the live slots have no removal
among them, so neither has a table that lists them. -/
theorem triples_perm_iff (records : List SlotRecord) (slots : List KVMSlot) :
    (records.map fun r => tableTriple r.pte).Perm
        ((slots.filter fun slot => slot.Live).map KVMSlot.triple) ↔
      (records.map SlotRecord.entry).Perm
        ((livePairs slots).map fun pair => (pair.1, some pair.2)) := by
  rw [livePairs_eq_map, List.map_map]
  constructor
  · intro hPerm
    have hEntries := hPerm.map tripleEntry
    rw [List.map_map, List.map_map] at hEntries
    have hRecords : records.map (tripleEntry ∘ fun r => tableTriple r.pte) =
        records.map SlotRecord.entry := List.map_congr_left fun r _ => tripleEntry_pte r
    have hSlots : (slots.filter fun slot => slot.Live).map (tripleEntry ∘ KVMSlot.triple) =
        (slots.filter fun slot => slot.Live).map ((fun pair => (pair.1, some pair.2)) ∘
          fun slot => (slot.startAddr, (slot.ram, slot.memorySize))) := by
      apply List.map_congr_left
      intro slot hSlot
      have hLive : slot.memorySize ≠ 0 := of_decide_eq_true (List.mem_filter.mp hSlot).2
      simp [tripleEntry, KVMSlot.triple, hLive]
    rw [hRecords, hSlots] at hEntries
    exact hEntries
  · intro hPerm
    have hTriples := hPerm.map entryTriple
    rw [List.map_map, List.map_map] at hTriples
    have hRecords : records.map (entryTriple ∘ SlotRecord.entry) =
        records.map fun r => tableTriple r.pte := by
      apply List.map_congr_left
      intro r hr
      apply entryTriple_entry
      have hMem := hPerm.mem_iff.mp (List.mem_map_of_mem hr)
      obtain ⟨slot, _, hEq⟩ := List.mem_map.mp hMem
      rw [← hEq]
      exact Option.some_ne_none _
    rw [hRecords] at hTriples
    exact hTriples

/-- The table lists the live slots exactly when the first three operations of
the run are registrations and the later ones have no effect in sum. -/
theorem slot_table_live_iff {s : KVMState} {nrSlots : Nat} {events : List MemoryEvent}
    {kml : KVMMemoryListener} (run : Run (Step s) (.register nrSlots) events kml) :
    ((getHgpte (some (hgfileText kml))).1.map tableTriple).Perm
        ((liveSlots kml).map KVMSlot.triple) ↔
      (∀ op ∈ (operations kml).take 3, op.2 = true) ∧
        replay (((operations kml).take 3).map Prod.fst) =
          replay ((operations kml).map Prod.fst) := by
  have h := SlotLog.run run
  have hRepresents := h.represents
  rw [logged, ← map_fst_operations h] at hRepresents
  have hSorted : ((getHgpte (some (hgfileText kml))).1.map tableTriple).Perm
      ((kml.hgfile.take 3).map fun r => tableTriple r.pte) := by
    rw [getHgpte_hgfileText]
    have hSort := (StableSort.perm_sortBy (fun entry => OrderDual.toDual entry.guestPhysAddr)
      ((kml.hgfile.take 3).map SlotRecord.pte)).map tableTriple
    rw [List.map_map] at hSort
    exact hSort
  have hTaken : ((operations kml).take 3).map Prod.fst =
      (kml.hgfile.take 3).map SlotRecord.entry := by
    rw [List.map_take, map_fst_operations h, List.map_take]
  rw [← take_perm_iff h.legal 3 hRepresents, hSorted.congr_left, liveSlots, triples_perm_iff,
    hTaken]

/-- Two slots have been registered, and nothing else happened. -/
theorem registered_slot_table :
    ((getHgpte (some (hgfileText (remapped 1)))).1.map tableTriple).Perm
      ((liveSlots (remapped 1)).map KVMSlot.triple) := by
  apply (slot_table_live_iff run_registered).mpr
  have hWritten : ((operations (remapped 1)).take 3).all Prod.snd = true := by decide +kernel
  refine ⟨List.all_eq_true.mp hWritten, ?_⟩
  rw [List.take_of_length_le (by decide +kernel)]

/-- Both slots are gone, and the table has them still, one of them twice. -/
theorem unregistered_slot_table :
    Run (Step smallSlots) (.register 4) (remapEvents.take 2) (remapped 2) ∧
      liveSlots (remapped 2) = [] ∧
      (getHgpte (some (hgfileText (remapped 2)))).1.map tableTriple =
        [(1008192, 12288, 4096), (1000000, 4096, 8192), (1000000, 4096, 0)] ∧
      ¬ ((getHgpte (some (hgfileText (remapped 2)))).1.map tableTriple).Perm
        ((liveSlots (remapped 2)).map KVMSlot.triple) :=
  ⟨run_unregistered, by decide +kernel, by decide +kernel, by decide +kernel⟩

end Qemu
