import DoubleSwap.Host.ReverseMap

/-! The swap-outs that a reverse-mapping walk records. It records the pages of
one VMA, the one at which the map count runs out, whatever became of the entries
that it has come to there and in the VMAs before. -/
namespace Host

/-- The walk gets as far as a VMA: it is started, and the `anon_vma` is locked. -/
def RmapWalk.Entered (walk : RmapWalk) (folio : AnonFolio) : Prop :=
  walk.starts folio = true ∧ (walk.locked = true ∨ 0 < folio.mapcount)

/-- The entries of the VMA that the loop goes over, unless it ends at a huge one. -/
def RmapWalk.entries (walk : RmapWalk) (vma : Vma) : Option (List Pte) :=
  match walk, vma.table with
  | _, .ptes entries => some entries
  | .tryToUnmap flags, .pmd entry =>
      if !flags.ignoreMlock && vma.locked then none
      else if entry.lazyFreed then some []
      else if flags.splitHugePmd then some entry.pages
      else none
  | .tryToMigrate flags, .pmd entry =>
      if flags.splitHugePmd then if entry.frozen then some [] else some entry.pages
      else if entry.migrated then some []
      else none
  | .folioMakeDeviceExclusive, .pmd _ => none

/-- Nothing keeps the entry from being disposed of. -/
def RmapWalk.Takes (walk : RmapWalk) (folio : AnonFolio) (vma : Vma) (pte : Pte) : Prop :=
  match walk with
  | .tryToUnmap flags =>
      (vma.locked → flags.ignoreMlock) ∧
        (pte.hwPoison ∧ flags.hwpoison ∨ pte.unused ∨ pte.cacheAgrees ∧
          (¬ pte.swapbacked ∧ pte.discardable ∨
            pte.swapbacked ∧ pte.swapDuplicated ∧ pte.archUnmapped ∧ pte.shareable))
  | .tryToMigrate _ =>
      folio.devicePrivate ∨ pte.hwPoison ∨ pte.unused ∨ pte.archUnmapped ∧ pte.shareable
  | .folioMakeDeviceExclusive => pte.kind = .present

/-- The entry is one for a swap entry to replace. -/
def RmapWalk.Swaps (walk : RmapWalk) (vma : Vma) (pte : Pte) : Prop :=
  match walk with
  | .tryToUnmap flags =>
      (vma.locked → flags.ignoreMlock) ∧ ¬ (pte.hwPoison ∧ flags.hwpoison) ∧ ¬ pte.unused ∧
        pte.cacheAgrees ∧ pte.swapbacked ∧ pte.swapDuplicated ∧ pte.archUnmapped ∧ pte.shareable
  | .tryToMigrate _ | .folioMakeDeviceExclusive => False

/-- The walk goes on after the VMA, or ends because nothing is mapped any more. -/
def RmapWalk.Passes (walk : RmapWalk) (folio : AnonFolio) (vma : Vma) : Prop :=
  ∃ ptes, walk.entries vma = some ptes ∧ ∀ pte ∈ ptes, walk.Takes folio vma pte

/-- The loop over the VMA comes to the entry. -/
def RmapWalk.ComesTo (walk : RmapWalk) (folio : AnonFolio) (vma : Vma) (pte : Pte) : Prop :=
  ∃ front back, walk.entries vma = some (front ++ pte :: back) ∧
    ∀ other ∈ front, walk.Takes folio vma other

/-- The entries found in a list of VMAs. -/
def entryCount (vmas : List Vma) : Nat := (vmas.map fun vma => vma.table.entryCount).sum

/-- The VMAs that are not skipped. -/
def RmapWalk.visited (walk : RmapWalk) (folio : AnonFolio) : List Vma :=
  folio.vmas.filter fun vma => !walk.invalidVma vma

/-- With `mapcount` to go the walk along `vmas` comes to `vma`, after `before`:
those VMAs let it pass and hold fewer entries than that. -/
structure RmapWalk.Along (walk : RmapWalk) (folio : AnonFolio) (mapcount : Int) (vmas : List Vma)
    (before : List Vma) (vma : Vma) : Prop where
  leads : before ++ [vma] <+: vmas
  passes : ∀ w ∈ before, walk.Passes folio w
  mapped : before = [] ∨ (entryCount before : Int) < mapcount

/-- The walk comes to `vma` after the VMAs `before`. -/
structure RmapWalk.Visits (walk : RmapWalk) (folio : AnonFolio) (before : List Vma) (vma : Vma) :
    Prop where
  entered : walk.Entered folio
  along : walk.Along folio folio.mapcount (walk.visited folio) before vma

/-- The walk comes to the entry. -/
def RmapWalk.Reaches (walk : RmapWalk) (folio : AnonFolio) (vma : Vma) (pte : Pte) : Prop :=
  ∃ before, walk.Visits folio before vma ∧ walk.ComesTo folio vma pte

/-- The map count of the folio runs out at `last`. -/
def RmapWalk.EndsAt (walk : RmapWalk) (folio : AnonFolio) (last : Vma) : Prop :=
  ∃ before, walk.Visits folio before last ∧ walk.Passes folio last ∧
    folio.mapcount ≤ entryCount (before ++ [last])

section Entry

variable {walk : RmapWalk} {folio : AnonFolio} {vma : Vma} {pte : Pte} {ptes : List Pte}

/-- What the loop of the callback does to an entry. -/
def RmapWalk.fate (walk : RmapWalk) (folio : AnonFolio) (vma : Vma) : Pte → Option Fate :=
  match walk with
  | .tryToUnmap flags => unmapPte flags vma
  | .tryToMigrate _ => migratePte folio.devicePrivate
  | .folioMakeDeviceExclusive => makeDeviceExclusivePte

theorem fate_ne_none_iff : walk.fate folio vma pte ≠ none ↔ walk.Takes folio vma pte := by
  cases walk with
  | tryToUnmap flags =>
      rw [RmapWalk.fate, RmapWalk.Takes, unmapPte]
      split_ifs <;> grind
  | tryToMigrate flags =>
      rw [RmapWalk.fate, RmapWalk.Takes, migratePte]
      split_ifs <;> simp_all
  | folioMakeDeviceExclusive =>
      rw [RmapWalk.fate, RmapWalk.Takes, makeDeviceExclusivePte]
      split_ifs <;> simp_all

theorem fate_eq_swapped_iff : walk.fate folio vma pte = some .swapped ↔ walk.Swaps vma pte := by
  cases walk with
  | tryToUnmap flags =>
      rw [RmapWalk.fate, RmapWalk.Swaps, unmapPte]
      split_ifs <;> grind
  | tryToMigrate flags =>
      rw [RmapWalk.fate, RmapWalk.Swaps, migratePte]
      split_ifs <;> simp_all
  | folioMakeDeviceExclusive =>
      rw [RmapWalk.fate, RmapWalk.Swaps, makeDeviceExclusivePte]
      split_ifs <;> simp_all

/-- A callback is its loop over the entries; a huge entry that it splits or
drops is accounted for beforehand. -/
theorem rmapOne_of_entries (h : walk.entries vma = some ptes) (mapcount : Int) :
    walk.rmapOne folio vma mapcount = walkPtes vma (walk.fate folio vma)
      (mapcount - vma.table.entryCount + ptes.length) ptes := by
  cases hTable : vma.table with
  | ptes entries =>
      have hEntries : walk.entries vma = some entries := by simp only [RmapWalk.entries, hTable]
      obtain rfl := Option.some.inj (hEntries.symm.trans h)
      cases walk <;> simp only [RmapWalk.rmapOne, RmapWalk.fate, tryToUnmapOne, tryToMigrateOne,
        pageMakeDeviceExclusiveOne, hTable, PageTable.entryCount, sub_add_cancel]
  | pmd entry =>
      cases walk with
      | tryToUnmap flags =>
          simp only [RmapWalk.entries, hTable] at h
          simp only [RmapWalk.rmapOne, RmapWalk.fate, tryToUnmapOne, hTable, PageTable.entryCount]
          split_ifs at h ⊢ <;> cases h <;> simp [walkPtes]
      | tryToMigrate flags =>
          simp only [RmapWalk.entries, hTable] at h
          simp only [RmapWalk.rmapOne, RmapWalk.fate, tryToMigrateOne, hTable,
            PageTable.entryCount]
          split_ifs at h ⊢ <;> cases h <;> simp [walkPtes]
      | folioMakeDeviceExclusive =>
          simp only [RmapWalk.entries, hTable] at h
          cases h

theorem rmapOne_of_none (h : walk.entries vma = none) (mapcount : Int) :
    walk.rmapOne folio vma mapcount = ⟨false, mapcount, []⟩ := by
  cases hTable : vma.table with
  | ptes entries =>
      simp only [RmapWalk.entries, hTable] at h
      cases h
  | pmd entry =>
      cases walk with
      | tryToUnmap flags =>
          simp only [RmapWalk.entries, hTable] at h
          simp only [RmapWalk.rmapOne, tryToUnmapOne, hTable]
          split_ifs at h ⊢ <;> rfl
      | tryToMigrate flags =>
          simp only [RmapWalk.entries, hTable] at h
          simp only [RmapWalk.rmapOne, tryToMigrateOne, hTable]
          split_ifs at h ⊢
          rfl
      | folioMakeDeviceExclusive =>
          simp only [RmapWalk.rmapOne, pageMakeDeviceExclusiveOne, hTable]

variable {fate : Pte → Option Fate} {mapcount : Int}

theorem walkPtes_cons_none (h : fate pte = none) :
    walkPtes vma fate mapcount (pte :: ptes) = ⟨false, mapcount, []⟩ := by
  rw [walkPtes, h]

theorem walkPtes_cons_some {f : Fate} (h : fate pte = some f) :
    walkPtes vma fate mapcount (pte :: ptes) =
      { walkPtes vma fate (mapcount - 1) ptes with
        removed := ⟨vma, pte, f⟩ :: (walkPtes vma fate (mapcount - 1) ptes).removed } := by
  rw [walkPtes, h]

/-- The loop disposes of all entries, and the map count falls by their number. -/
theorem walkPtes_of_taken (vma : Vma) (mapcount : Int) (h : ∀ pte ∈ ptes, fate pte ≠ none) :
    (walkPtes vma fate mapcount ptes).ret = true ∧
      (walkPtes vma fate mapcount ptes).mapcount = mapcount - ptes.length := by
  induction ptes generalizing mapcount with
  | nil => exact ⟨rfl, (sub_zero mapcount).symm⟩
  | cons pte ptes ih =>
      rw [List.forall_mem_cons] at h
      obtain ⟨f, hFate⟩ := Option.ne_none_iff_exists'.mp h.1
      obtain ⟨hRet, hCount⟩ := ih (mapcount - 1) h.2
      rw [walkPtes_cons_some hFate, List.length_cons]
      exact ⟨hRet, by rw [hCount]; push_cast; ring⟩

theorem walkPtes_of_refused (h : ∃ pte ∈ ptes, fate pte = none) :
    (walkPtes vma fate mapcount ptes).ret = false := by
  induction ptes generalizing mapcount with
  | nil =>
      obtain ⟨pte, hPte, _⟩ := h
      cases hPte
  | cons pte ptes ih =>
      cases hFate : fate pte with
      | none => rw [walkPtes_cons_none hFate]
      | some f =>
          obtain ⟨refused, hRefused, hNone⟩ := h
          rw [walkPtes_cons_some hFate]
          refine ih ⟨refused, (List.mem_cons.mp hRefused).resolve_left ?_, hNone⟩
          rintro rfl
          rw [hNone] at hFate
          cases hFate

/-- The loop disposes of the entries up to the first that is refused. -/
theorem mem_walkPtes {removed : Removed} :
    removed ∈ (walkPtes vma fate mapcount ptes).removed ↔
      removed.vma = vma ∧ fate removed.pte = some removed.fate ∧
        ∃ front back, ptes = front ++ removed.pte :: back ∧ ∀ p ∈ front, fate p ≠ none := by
  induction ptes generalizing mapcount with
  | nil => simp [walkPtes]
  | cons pte ptes ih =>
      cases hFate : fate pte with
      | none =>
          rw [walkPtes_cons_none hFate]
          refine ⟨fun h => absurd h List.not_mem_nil, ?_⟩
          rintro ⟨_, hSome, front, back, hSplit, hFront⟩
          rcases List.cons_eq_append_iff.mp hSplit with ⟨rfl, hHead⟩ | ⟨front', rfl, _⟩
          · obtain ⟨rfl, _⟩ := List.cons.inj hHead
            rw [hSome] at hFate
            cases hFate
          · exact absurd hFate (hFront pte List.mem_cons_self)
      | some f =>
          rw [walkPtes_cons_some hFate, List.mem_cons, ih]
          constructor
          · rintro (rfl | ⟨rfl, hSome, front, back, rfl, hFront⟩)
            · exact ⟨rfl, hFate, [], ptes, rfl, by simp⟩
            · refine ⟨rfl, hSome, pte :: front, back, rfl, ?_⟩
              rw [List.forall_mem_cons]
              exact ⟨by simp [hFate], hFront⟩
          · rintro ⟨rfl, hSome, front, back, hSplit, hFront⟩
            rcases List.cons_eq_append_iff.mp hSplit with ⟨rfl, hHead⟩ | ⟨front', rfl, rfl⟩
            · obtain ⟨rfl, _⟩ := List.cons.inj hHead
              obtain rfl := Option.some.inj (hSome.symm.trans hFate)
              exact Or.inl rfl
            · exact Or.inr ⟨rfl, hSome, front', back, rfl,
                fun p hp => hFront p (List.mem_cons_of_mem _ hp)⟩

/-- The places of what the loop disposes of are among those of the entries. -/
theorem places_walkPtes :
    ((walkPtes vma fate mapcount ptes).removed.map Removed.place).Sublist
      (ptes.map fun pte => (vma.process, pte.address)) := by
  induction ptes generalizing mapcount with
  | nil => exact List.Sublist.refl _
  | cons pte ptes ih =>
      cases hFate : fate pte with
      | none =>
          rw [walkPtes_cons_none hFate]
          exact List.nil_sublist _
      | some f =>
          rw [walkPtes_cons_some hFate]
          exact ih.cons_cons _

/-- The entries of a VMA that the loop goes over are its pages, if any. -/
theorem entries_sublist (h : walk.entries vma = some ptes) : ptes.Sublist vma.table.pages := by
  cases hTable : vma.table with
  | ptes entries =>
      simp only [RmapWalk.entries, hTable] at h
      cases h
      exact List.Sublist.refl _
  | pmd entry =>
      cases walk with
      | tryToUnmap flags =>
          simp only [RmapWalk.entries, hTable] at h
          split_ifs at h <;> cases h
          · exact List.nil_sublist _
          · exact List.Sublist.refl _
      | tryToMigrate flags =>
          simp only [RmapWalk.entries, hTable] at h
          split_ifs at h <;> cases h
          · exact List.nil_sublist _
          · exact List.Sublist.refl _
          · exact List.nil_sublist _
      | folioMakeDeviceExclusive =>
          simp only [RmapWalk.entries, hTable] at h
          cases h

end Entry

section OneVma

variable {walk : RmapWalk} {folio : AnonFolio} {vma : Vma} {mapcount : Int}

theorem rmapOne_of_passes (mapcount : Int) (h : walk.Passes folio vma) :
    (walk.rmapOne folio vma mapcount).ret = true ∧
      (walk.rmapOne folio vma mapcount).mapcount = mapcount - vma.table.entryCount := by
  obtain ⟨ptes, hEntries, hTakes⟩ := h
  obtain ⟨hRet, hCount⟩ := walkPtes_of_taken vma (mapcount - vma.table.entryCount + ptes.length)
    (fun pte hPte => fate_ne_none_iff.mpr (hTakes pte hPte))
  rw [rmapOne_of_entries hEntries]
  exact ⟨hRet, by rw [hCount]; ring⟩

theorem rmapOne_of_not_passes (mapcount : Int) (h : ¬ walk.Passes folio vma) :
    (walk.rmapOne folio vma mapcount).ret = false := by
  cases hEntries : walk.entries vma with
  | none => rw [rmapOne_of_none hEntries]
  | some ptes =>
      rw [rmapOne_of_entries hEntries]
      apply walkPtes_of_refused
      by_contra hNone
      push Not at hNone
      exact h ⟨ptes, hEntries, fun pte hPte => fate_ne_none_iff.mp (hNone pte hPte)⟩

theorem mem_rmapOne {removed : Removed} :
    removed ∈ (walk.rmapOne folio vma mapcount).removed ↔
      removed.vma = vma ∧ walk.fate folio vma removed.pte = some removed.fate ∧
        walk.ComesTo folio vma removed.pte := by
  cases hEntries : walk.entries vma with
  | none =>
      rw [rmapOne_of_none hEntries, RmapWalk.ComesTo, hEntries]
      simp
  | some ptes =>
      rw [rmapOne_of_entries hEntries, mem_walkPtes, RmapWalk.ComesTo, hEntries]
      simp only [Option.some.injEq, fate_ne_none_iff]

theorem places_rmapOne :
    ((walk.rmapOne folio vma mapcount).removed.map Removed.place).Sublist vma.places := by
  cases hEntries : walk.entries vma with
  | none =>
      rw [rmapOne_of_none hEntries]
      exact List.nil_sublist _
  | some ptes =>
      rw [rmapOne_of_entries hEntries]
      exact places_walkPtes.trans ((entries_sublist hEntries).map _)

end OneVma

section Walk

variable {walk : RmapWalk} {folio : AnonFolio} {vma : Vma} {vmas before : List Vma}
  {mapcount : Int}

theorem entryCount_cons (vma : Vma) (vmas : List Vma) :
    entryCount (vma :: vmas) = vma.table.entryCount + entryCount vmas := rfl

/-- The first VMA is come to in any case, and those after it if it lets the
walk pass and something is still mapped. -/
theorem along_cons {w : Vma} : walk.Along folio mapcount (w :: vmas) before vma ↔
    before = [] ∧ vma = w ∨ ∃ rest, before = w :: rest ∧ walk.Passes folio w ∧
      (w.table.entryCount : Int) < mapcount ∧
      walk.Along folio (mapcount - w.table.entryCount) vmas rest vma := by
  constructor
  · rintro ⟨hLeads, hPasses, hMapped⟩
    cases before with
    | nil => exact Or.inl ⟨rfl, (List.cons_prefix_cons.mp hLeads).1⟩
    | cons u rest =>
        obtain ⟨rfl, hRest⟩ := List.cons_prefix_cons.mp hLeads
        rw [List.forall_mem_cons] at hPasses
        have hCount := hMapped.resolve_left (List.cons_ne_nil u rest)
        rw [entryCount_cons] at hCount
        push_cast at hCount
        refine Or.inr ⟨rest, rfl, hPasses.1, by omega, hRest, hPasses.2, Or.inr (by omega)⟩
  · rintro (⟨rfl, rfl⟩ | ⟨rest, rfl, hPass, hCount, hLeads, hPasses, hMapped⟩)
    · exact ⟨List.cons_prefix_cons.mpr ⟨rfl, List.nil_prefix⟩, by simp, Or.inl rfl⟩
    · refine ⟨List.cons_prefix_cons.mpr ⟨rfl, hLeads⟩, List.forall_mem_cons.mpr ⟨hPass, hPasses⟩,
        Or.inr ?_⟩
      rw [entryCount_cons]
      push_cast
      rcases hMapped with rfl | hMapped
      · rw [show entryCount [] = 0 from rfl]
        push_cast
        omega
      · omega

theorem not_along_nil : ¬ walk.Along folio mapcount [] before vma := by
  rintro ⟨hLeads, _, _⟩
  have hNil := List.prefix_nil.mp hLeads
  simp at hNil

theorem walkVmas_visited (rmapOne : Vma → Int → RmapOne) (invalidVma : Vma → Bool) (nrPages : Nat)
    (mapcount : Int) (vmas : List Vma) :
    walkVmas rmapOne invalidVma nrPages mapcount vmas =
      walkVmas rmapOne (fun _ => false) nrPages mapcount
        (vmas.filter fun vma => !invalidVma vma) := by
  induction vmas generalizing mapcount with
  | nil => rfl
  | cons vma vmas ih =>
      rw [walkVmas]
      cases hSkip : invalidVma vma with
      | true => rw [if_pos rfl, ih, List.filter_cons_of_neg (by simp [hSkip])]
      | false =>
          rw [List.filter_cons_of_pos (by simp [hSkip]), walkVmas]
          simp only [ih]

/-- What one VMA adds to the walk: it stops there, ends there, or goes on. -/
theorem walkVmas_cons (vma : Vma) (vmas : List Vma) (mapcount : Int) :
    (¬ walk.Passes folio vma ∧
      walkVmas (walk.rmapOne folio) (fun _ => false) folio.nrPages mapcount (vma :: vmas) =
        ⟨[], (walk.rmapOne folio vma mapcount).removed⟩) ∨
    (walk.Passes folio vma ∧ mapcount ≤ vma.table.entryCount ∧
      walkVmas (walk.rmapOne folio) (fun _ => false) folio.nrPages mapcount (vma :: vmas) =
        ⟨logSwapOut folio.nrPages vma, (walk.rmapOne folio vma mapcount).removed⟩) ∨
    (walk.Passes folio vma ∧ (vma.table.entryCount : Int) < mapcount ∧
      walkVmas (walk.rmapOne folio) (fun _ => false) folio.nrPages mapcount (vma :: vmas) =
        ⟨(walkVmas (walk.rmapOne folio) (fun _ => false) folio.nrPages
            (mapcount - vma.table.entryCount) vmas).queued,
          (walk.rmapOne folio vma mapcount).removed ++
            (walkVmas (walk.rmapOne folio) (fun _ => false) folio.nrPages
              (mapcount - vma.table.entryCount) vmas).removed⟩) := by
  rw [walkVmas, if_neg Bool.false_ne_true]
  by_cases hPasses : walk.Passes folio vma
  · obtain ⟨hRet, hCount⟩ := rmapOne_of_passes mapcount hPasses
    simp only [hRet, hCount, Bool.not_true, Bool.false_eq_true, if_false]
    by_cases hDone : mapcount ≤ vma.table.entryCount
    · exact Or.inr (Or.inl ⟨hPasses, hDone, if_pos (by omega)⟩)
    · exact Or.inr (Or.inr ⟨hPasses, by omega, if_neg (by omega)⟩)
  · have hRet := rmapOne_of_not_passes mapcount hPasses
    exact Or.inl ⟨hPasses, if_pos (by rw [hRet]; rfl)⟩

/-- The recorded pages are those of the VMA at which the map count runs out. -/
theorem mem_queued_walkVmas {page : Process × Nat} :
    page ∈ (walkVmas (walk.rmapOne folio) (fun _ => false) folio.nrPages mapcount vmas).queued ↔
      ∃ before last, walk.Along folio mapcount vmas before last ∧ walk.Passes folio last ∧
        mapcount ≤ entryCount (before ++ [last]) ∧ page ∈ logSwapOut folio.nrPages last := by
  induction vmas generalizing mapcount with
  | nil =>
      refine ⟨fun h => absurd h List.not_mem_nil, ?_⟩
      rintro ⟨before, last, hAlong, _⟩
      exact absurd hAlong not_along_nil
  | cons vma vmas ih =>
      simp only [along_cons]
      rcases walkVmas_cons vma vmas mapcount with ⟨hStops, hWalk⟩ | ⟨hPasses, hDone, hWalk⟩ |
        ⟨hPasses, hMapped, hWalk⟩
      · rw [hWalk]
        refine ⟨fun h => absurd h List.not_mem_nil, ?_⟩
        rintro ⟨before, last, ⟨rfl, rfl⟩ | ⟨rest, rfl, hPasses, _⟩, hLast, _⟩
        · exact absurd hLast hStops
        · exact absurd hPasses hStops
      · rw [hWalk]
        constructor
        · intro hPage
          exact ⟨[], vma, Or.inl ⟨rfl, rfl⟩, hPasses, by simpa [entryCount] using hDone, hPage⟩
        · rintro ⟨before, last, ⟨rfl, rfl⟩ | ⟨rest, rfl, _, hMapped, _⟩, _, _, hPage⟩
          · exact hPage
          · omega
      · rw [hWalk, ih]
        constructor
        · rintro ⟨before, last, hAlong, hLast, hDone, hPage⟩
          refine ⟨vma :: before, last, Or.inr ⟨before, rfl, hPasses, hMapped, hAlong⟩, hLast, ?_,
            hPage⟩
          rw [List.cons_append, entryCount_cons]
          push_cast
          omega
        · rintro ⟨before, last, ⟨rfl, rfl⟩ | ⟨rest, rfl, _, _, hAlong⟩, hLast, hDone, hPage⟩
          · rw [List.nil_append, entryCount_cons, show entryCount [] = 0 from rfl] at hDone
            omega
          · refine ⟨rest, last, hAlong, hLast, ?_, hPage⟩
            rw [List.cons_append, entryCount_cons] at hDone
            push_cast at hDone
            omega

/-- What is disposed of are the entries that the walk comes to, by their fates. -/
theorem mem_removed_walkVmas {removed : Removed} :
    removed ∈ (walkVmas (walk.rmapOne folio) (fun _ => false) folio.nrPages mapcount
        vmas).removed ↔
      walk.fate folio removed.vma removed.pte = some removed.fate ∧
        ∃ before, walk.Along folio mapcount vmas before removed.vma ∧
          walk.ComesTo folio removed.vma removed.pte := by
  induction vmas generalizing mapcount with
  | nil =>
      refine ⟨fun h => absurd h List.not_mem_nil, ?_⟩
      rintro ⟨_, before, hAlong, _⟩
      exact absurd hAlong not_along_nil
  | cons vma vmas ih =>
      have hHead : removed ∈ (walk.rmapOne folio vma mapcount).removed ↔
          walk.fate folio removed.vma removed.pte = some removed.fate ∧
            removed.vma = vma ∧ walk.ComesTo folio removed.vma removed.pte := by
        rw [mem_rmapOne]
        constructor
        · rintro ⟨rfl, hFate, hComes⟩
          exact ⟨hFate, rfl, hComes⟩
        · rintro ⟨hFate, rfl, hComes⟩
          exact ⟨rfl, hFate, hComes⟩
      simp only [along_cons]
      rcases walkVmas_cons vma vmas mapcount with ⟨hStops, hWalk⟩ | ⟨hPasses, hDone, hWalk⟩ |
        ⟨hPasses, hMapped, hWalk⟩
      · rw [hWalk, hHead]
        refine and_congr_right fun _ => ⟨fun h => ⟨[], Or.inl ⟨rfl, h.1⟩, h.2⟩, ?_⟩
        rintro ⟨before, ⟨_, hHere⟩ | ⟨rest, _, hPasses, _⟩, hComes⟩
        · exact ⟨hHere, hComes⟩
        · exact absurd hPasses hStops
      · rw [hWalk, hHead]
        refine and_congr_right fun _ => ⟨fun h => ⟨[], Or.inl ⟨rfl, h.1⟩, h.2⟩, ?_⟩
        rintro ⟨before, ⟨_, hHere⟩ | ⟨rest, _, _, hMapped, _⟩, hComes⟩
        · exact ⟨hHere, hComes⟩
        · omega
      · rw [hWalk, List.mem_append, hHead, ih, ← and_or_left]
        refine and_congr_right fun _ => ⟨?_, ?_⟩
        · rintro (⟨hHere, hComes⟩ | ⟨before, hAlong, hComes⟩)
          · exact ⟨[], Or.inl ⟨rfl, hHere⟩, hComes⟩
          · exact ⟨vma :: before, Or.inr ⟨before, rfl, hPasses, hMapped, hAlong⟩, hComes⟩
        · rintro ⟨before, ⟨_, hHere⟩ | ⟨rest, _, _, _, hAlong⟩, hComes⟩
          · exact Or.inl ⟨hHere, hComes⟩
          · exact Or.inr ⟨rest, hAlong, hComes⟩

theorem places_walkVmas :
    ((walkVmas (walk.rmapOne folio) (fun _ => false) folio.nrPages mapcount
      vmas).removed.map Removed.place).Sublist (vmas.flatMap Vma.places) := by
  induction vmas generalizing mapcount with
  | nil => exact List.Sublist.refl _
  | cons vma vmas ih =>
      rw [List.flatMap_cons]
      rcases walkVmas_cons vma vmas mapcount with ⟨_, hWalk⟩ | ⟨_, _, hWalk⟩ | ⟨_, _, hWalk⟩
      · rw [hWalk]
        exact places_rmapOne.trans (List.sublist_append_left _ _)
      · rw [hWalk]
        exact places_rmapOne.trans (List.sublist_append_left _ _)
      · rw [hWalk, List.map_append]
        exact places_rmapOne.append ih

theorem nodup_logSwapOut (nrPages : Nat) (vma : Vma) : (logSwapOut nrPages vma).Nodup := by
  apply List.nodup_range.map
  intro i j h
  have hAddress := congrArg Prod.snd h
  simp only at hAddress
  omega

theorem nodup_queued_walkVmas :
    (walkVmas (walk.rmapOne folio) (fun _ => false) folio.nrPages mapcount vmas).queued.Nodup := by
  induction vmas generalizing mapcount with
  | nil => exact List.nodup_nil
  | cons vma vmas ih =>
      rcases walkVmas_cons vma vmas mapcount with ⟨_, hWalk⟩ | ⟨_, _, hWalk⟩ | ⟨_, _, hWalk⟩
      · rw [hWalk]
        exact List.nodup_nil
      · rw [hWalk]
        exact nodup_logSwapOut folio.nrPages vma
      · rw [hWalk]
        exact ih

end Walk

section Run

variable {walk : RmapWalk} {folio : AnonFolio}

theorem run_of_not_entered (h : ¬ walk.Entered folio) : walk.run folio = ⟨[], []⟩ := by
  rw [RmapWalk.run]
  split_ifs with hStarts
  · rw [rmapWalkAnon, if_pos]
    have hLocked : walk.locked = false ∧ folio.mapcount ≤ 0 := by
      simpa using fun hLock => h ⟨hStarts, hLock⟩
    simp only [hLocked.1, Nat.le_zero.mp hLocked.2, Bool.not_false, beq_self_eq_true, Bool.and_self]
  · rfl

theorem run_of_entered (h : walk.Entered folio) :
    walk.run folio = walkVmas (walk.rmapOne folio) (fun _ => false) folio.nrPages folio.mapcount
      (walk.visited folio) := by
  obtain ⟨hStarts, hLocked⟩ := h
  rw [RmapWalk.run, if_pos hStarts, rmapWalkAnon, if_neg, walkVmas_visited]
  · rfl
  · rintro hNone
    simp only [Bool.and_eq_true, Bool.not_eq_true', beq_iff_eq] at hNone
    rcases hLocked with hLock | hMapped
    · rw [hLock] at hNone
      cases hNone.1
    · omega

/-- The recorded pages are those of the VMA at which the map count runs out. -/
theorem mem_queued_run {page : Process × Nat} : page ∈ (walk.run folio).queued ↔
    ∃ last, walk.EndsAt folio last ∧ page ∈ logSwapOut folio.nrPages last := by
  by_cases hEntered : walk.Entered folio
  · rw [run_of_entered hEntered, mem_queued_walkVmas]
    constructor
    · rintro ⟨before, last, hAlong, hPasses, hDone, hPage⟩
      exact ⟨last, ⟨before, ⟨hEntered, hAlong⟩, hPasses, by exact_mod_cast hDone⟩, hPage⟩
    · rintro ⟨last, ⟨before, ⟨_, hAlong⟩, hPasses, hDone⟩, hPage⟩
      exact ⟨before, last, hAlong, hPasses, by exact_mod_cast hDone, hPage⟩
  · rw [run_of_not_entered hEntered]
    refine ⟨fun h => absurd h List.not_mem_nil, ?_⟩
    rintro ⟨last, ⟨before, ⟨hEnter, _⟩, _⟩, _⟩
    exact absurd hEnter hEntered

/-- The pages that are swapped out are those of the entries that the walk comes
to and that are ready for it. -/
theorem mem_swappedPages_run {page : Process × Nat} : page ∈ (walk.run folio).swappedPages ↔
    ∃ vma pte, walk.Reaches folio vma pte ∧ walk.Swaps vma pte ∧
      page = (vma.process, pte.address) := by
  rw [WalkResult.swappedPages, List.mem_map]
  by_cases hEntered : walk.Entered folio
  · simp only [run_of_entered hEntered, List.mem_filter, mem_removed_walkVmas, beq_iff_eq]
    constructor
    · rintro ⟨removed, ⟨⟨hFate, before, hAlong, hComes⟩, hSwapped⟩, rfl⟩
      rw [hSwapped] at hFate
      exact ⟨removed.vma, removed.pte, ⟨before, ⟨hEntered, hAlong⟩, hComes⟩,
        fate_eq_swapped_iff.mp hFate, rfl⟩
    · rintro ⟨vma, pte, ⟨before, hVisits, hComes⟩, hSwaps, rfl⟩
      exact ⟨⟨vma, pte, .swapped⟩, ⟨⟨fate_eq_swapped_iff.mpr hSwaps, before, hVisits.along, hComes⟩,
        rfl⟩, rfl⟩
  · rw [run_of_not_entered hEntered]
    constructor
    · rintro ⟨removed, hRemoved, _⟩
      exact absurd hRemoved List.not_mem_nil
    · rintro ⟨vma, pte, ⟨before, hVisits, _⟩, _⟩
      exact absurd hVisits.entered hEntered

theorem nodup_queued_run : (walk.run folio).queued.Nodup := by
  by_cases hEntered : walk.Entered folio
  · rw [run_of_entered hEntered]
    exact nodup_queued_walkVmas
  · rw [run_of_not_entered hEntered]
    exact List.nodup_nil

/-- No page is swapped out twice: a page table has one entry for an address. -/
theorem nodup_swappedPages_run : (walk.run folio).swappedPages.Nodup := by
  by_cases hEntered : walk.Entered folio
  · rw [WalkResult.swappedPages, run_of_entered hEntered]
    have hVisited : ((walk.visited folio).flatMap Vma.places).Sublist
        (folio.vmas.flatMap Vma.places) := List.filter_sublist.flatMap _
    exact folio.places_nodup.sublist
      ((List.filter_sublist.map _).trans (places_walkVmas.trans hVisited))
  · rw [run_of_not_entered hEntered]
    exact List.nodup_nil

theorem mem_logSwapOut {nrPages : Nat} {vma : Vma} {page : Process × Nat} :
    page ∈ logSwapOut nrPages vma ↔
      ∃ i < nrPages, page = (vma.process, vma.address + 4096 * i) := by
  simp only [logSwapOut, List.mem_map, List.mem_range, eq_comm]

theorem entryCount_append (first second : List Vma) :
    entryCount (first ++ second) = entryCount first + entryCount second := by
  rw [entryCount, List.map_append, List.sum_append, entryCount, entryCount]

/-- The walk comes to no VMA after the one at which the map count runs out. -/
theorem length_le_of_ends {before later : List Vma} {last vma : Vma}
    (hLast : walk.Visits folio before last) (hDone : folio.mapcount ≤ entryCount (before ++ [last]))
    (hVisits : walk.Visits folio later vma) : later.length ≤ before.length := by
  by_contra hLonger
  have hLater : later <+: walk.visited folio :=
    (List.prefix_append later [vma]).trans hVisits.along.leads
  obtain ⟨rest, hRest⟩ := List.prefix_of_prefix_length_le hLast.along.leads hLater
    (by rw [List.length_append, List.length_singleton]; omega)
  rcases hVisits.along.mapped with rfl | hMapped
  · simp at hRest
  · rw [← hRest, entryCount_append] at hMapped
    push_cast at hMapped
    omega

/-- The walk ends at one VMA at most. -/
theorem endsAt_unique {first second : Vma} (hFirst : walk.EndsAt folio first)
    (hSecond : walk.EndsAt folio second) : first = second := by
  obtain ⟨before, hVisits, _, hDone⟩ := hFirst
  obtain ⟨before', hVisits', _, hDone'⟩ := hSecond
  have hLength : before.length = before'.length := le_antisymm
    (length_le_of_ends hVisits' hDone' hVisits) (length_le_of_ends hVisits hDone hVisits')
  have hSame : before ++ [first] = before' ++ [second] :=
    (List.prefix_of_prefix_length_le hVisits.along.leads hVisits'.along.leads
      (by simp [hLength])).eq_of_length (by simp [hLength])
  exact (List.append_singleton_inj.mp hSame).2

end Run

/-- Of the entries that the walk comes to, those that are ready to be swapped
out are the ones of the pages from the folio's address in `last` on. -/
structure RmapWalk.SwapsFrom (walk : RmapWalk) (folio : AnonFolio) (last : Vma) : Prop where
  each : ∀ i < folio.nrPages, ∃ vma pte, walk.Reaches folio vma pte ∧ walk.Swaps vma pte ∧
    vma.process = last.process ∧ pte.address = last.address + 4096 * i
  only : ∀ vma pte, walk.Reaches folio vma pte → walk.Swaps vma pte →
    vma.process = last.process ∧ ∃ i < folio.nrPages, pte.address = last.address + 4096 * i

section Records

variable {walk : RmapWalk} {folio : AnonFolio} {last : Vma}

/-- The recorded pages and the pages that were swapped out are sets without
duplicates, described by the walk. -/
theorem perm_swappedPages_iff :
    (walk.run folio).queued.Perm (walk.run folio).swappedPages ↔ ∀ page,
      (∃ last, walk.EndsAt folio last ∧
        ∃ i < folio.nrPages, page = (last.process, last.address + 4096 * i)) ↔
      ∃ vma pte, walk.Reaches folio vma pte ∧ walk.Swaps vma pte ∧
        page = (vma.process, pte.address) := by
  rw [List.perm_ext_iff_of_nodup nodup_queued_run nodup_swappedPages_run]
  simp only [mem_queued_run, mem_swappedPages_run, mem_logSwapOut]

theorem swapsFrom_of_perm (hLast : walk.EndsAt folio last)
    (h : (walk.run folio).queued.Perm (walk.run folio).swappedPages) :
    walk.SwapsFrom folio last := by
  rw [perm_swappedPages_iff] at h
  constructor
  · intro i hi
    obtain ⟨vma, pte, hReaches, hSwaps, hPage⟩ := (h (last.process,
      last.address + 4096 * i)).mp ⟨last, hLast, i, hi, rfl⟩
    obtain ⟨hProcess, hAddress⟩ := Prod.mk.inj hPage
    exact ⟨vma, pte, hReaches, hSwaps, hProcess.symm, hAddress.symm⟩
  · intro vma pte hReaches hSwaps
    obtain ⟨other, hOther, i, hi, hPage⟩ := (h (vma.process, pte.address)).mpr
      ⟨vma, pte, hReaches, hSwaps, rfl⟩
    obtain rfl := endsAt_unique hLast hOther
    obtain ⟨hProcess, hAddress⟩ := Prod.mk.inj hPage
    exact ⟨hProcess, i, hi, hAddress⟩

theorem perm_of_swapsFrom (hLast : walk.EndsAt folio last) (h : walk.SwapsFrom folio last) :
    (walk.run folio).queued.Perm (walk.run folio).swappedPages := by
  obtain ⟨hEach, hOnly⟩ := h
  rw [perm_swappedPages_iff]
  intro page
  constructor
  · rintro ⟨other, hOther, i, hi, rfl⟩
    obtain rfl := endsAt_unique hLast hOther
    obtain ⟨vma, pte, hReaches, hSwaps, hProcess, hAddress⟩ := hEach i hi
    exact ⟨vma, pte, hReaches, hSwaps, by rw [hProcess, hAddress]⟩
  · rintro ⟨vma, pte, hReaches, hSwaps, rfl⟩
    obtain ⟨hProcess, i, hi, hAddress⟩ := hOnly vma pte hReaches hSwaps
    exact ⟨last, hLast, i, hi, by rw [hProcess, hAddress]⟩

/-- A walk that ends at no VMA records nothing, so it must swap out nothing. -/
theorem perm_iff_of_not_ends (hEnds : ¬ ∃ last, walk.EndsAt folio last) :
    (walk.run folio).queued.Perm (walk.run folio).swappedPages ↔
      ∀ vma pte, walk.Reaches folio vma pte → ¬ walk.Swaps vma pte := by
  rw [perm_swappedPages_iff]
  constructor
  · intro hSame vma pte hReaches hSwaps
    obtain ⟨last, hLast, _⟩ := (hSame (vma.process, pte.address)).mpr
      ⟨vma, pte, hReaches, hSwaps, rfl⟩
    exact hEnds ⟨last, hLast⟩
  · intro hNone page
    refine ⟨fun ⟨last, hLast, _⟩ => absurd ⟨last, hLast⟩ hEnds, ?_⟩
    rintro ⟨vma, pte, hReaches, hSwaps, _⟩
    exact absurd hSwaps (hNone vma pte hReaches)

end Records

/-- The recorded pages are the pages that were swapped out exactly when the walk
ends at a VMA from whose address on the pages are ready to be swapped out, and
no other is; or when it ends at none and comes to nothing that is ready. -/
theorem swap_out_records_iff (walk : RmapWalk) (folio : AnonFolio) :
    (walk.run folio).queued.Perm (walk.run folio).swappedPages ↔
      (∃ last, walk.EndsAt folio last ∧ walk.SwapsFrom folio last) ∨
        (¬ ∃ last, walk.EndsAt folio last) ∧
          ∀ vma pte, walk.Reaches folio vma pte → ¬ walk.Swaps vma pte := by
  constructor
  · intro hSame
    by_cases hEnds : ∃ last, walk.EndsAt folio last
    · obtain ⟨last, hLast⟩ := hEnds
      exact Or.inl ⟨last, hLast, swapsFrom_of_perm hLast hSame⟩
    · exact Or.inr ⟨hEnds, (perm_iff_of_not_ends hEnds).mp hSame⟩
  · rintro (⟨last, hLast, hSwaps⟩ | ⟨hEnds, hNone⟩)
    · exact perm_of_swapsFrom hLast hSwaps
    · exact (perm_iff_of_not_ends hEnds).mpr hNone

/-- An entry of a page in the swap cache that nothing keeps from being replaced. -/
def readyPte (address : Nat) : Pte where
  address := address
  kind := .present
  hwPoison := false
  unused := false
  cacheAgrees := true
  swapbacked := true
  discardable := false
  swapDuplicated := true
  archUnmapped := true
  shareable := true

/-- A page that a machine shares with the process that started it. -/
def sharedPage : AnonFolio where
  nrPages := 1
  zoneDevice := false
  devicePrivate := false
  deviceCoherent := false
  vmas :=
    [⟨⟨1, "libvirtd".toList, "50".toList⟩, 94000000000000, false, false,
        .ptes [readyPte 94000000000000]⟩,
      ⟨⟨2, "qemu-system-x86".toList, "100".toList⟩, 140000000000000, false, false,
        .ptes [readyPte 140000000000000]⟩]
  nrPages_pos := Nat.one_pos
  places_nodup := by decide

/-- The page is swapped out of two processes and recorded for one; a migration
of it, which swaps nothing, is recorded too. -/
theorem sharedPage_recorded_once :
    ¬ ((RmapWalk.tryToUnmap ⟨false, false, false, false⟩).run sharedPage).queued.Perm
        ((RmapWalk.tryToUnmap ⟨false, false, false, false⟩).run sharedPage).swappedPages ∧
      ((RmapWalk.tryToUnmap ⟨false, false, false, false⟩).run sharedPage).queued.length = 1 ∧
      ((RmapWalk.tryToUnmap ⟨false, false, false, false⟩).run sharedPage).swappedPages.length = 2 ∧
      ((RmapWalk.tryToMigrate ⟨false, false, false, false⟩).run sharedPage).queued.length = 1 ∧
      ((RmapWalk.tryToMigrate ⟨false, false, false, false⟩).run sharedPage).swappedPages = [] := by
  decide

section Cases

variable {walk : RmapWalk} {folio : AnonFolio}

/-- A folio from which two processes lose a page is recorded wrongly. -/
theorem not_records_of_two_processes {first second : Vma} {pte pte' : Pte}
    (hFirst : walk.Reaches folio first pte) (hSwaps : walk.Swaps first pte)
    (hSecond : walk.Reaches folio second pte') (hSwaps' : walk.Swaps second pte')
    (hne : first.process ≠ second.process) :
    ¬ (walk.run folio).queued.Perm (walk.run folio).swappedPages := by
  intro hSame
  by_cases hEnds : ∃ last, walk.EndsAt folio last
  · obtain ⟨last, hLast⟩ := hEnds
    have hOnly := (swapsFrom_of_perm hLast hSame).only
    exact hne ((hOnly first pte hFirst hSwaps).1.trans (hOnly second pte' hSecond hSwaps').1.symm)
  · exact (perm_iff_of_not_ends hEnds).mp hSame first pte hFirst hSwaps

/-- Of the VMAs of the folio only `vma` has entries, one for each page, which
are all ready to be swapped out. -/
structure AnonFolio.PrivateTo (folio : AnonFolio) (flags : TtuFlags) (before : List Vma) (vma : Vma)
    (after : List Vma) (entries : List Pte) : Prop where
  vmas : folio.vmas = before ++ vma :: after
  others : ∀ w ∈ before ++ after, w.table = .ptes []
  table : vma.table = .ptes entries
  pages : entries.map Pte.address =
    (List.range folio.nrPages).map fun i => vma.address + 4096 * i
  present : ∀ pte ∈ entries, pte.kind = .present
  swaps : ∀ pte ∈ entries, (RmapWalk.tryToUnmap flags).Swaps vma pte

section Private

variable {flags : TtuFlags} {before after : List Vma} {vma : Vma} {entries : List Pte}
  (h : folio.PrivateTo flags before vma after entries)

include h

theorem AnonFolio.PrivateTo.length_entries : entries.length = folio.nrPages := by
  have hLength := congrArg List.length h.pages
  rwa [List.length_map, List.length_map, List.length_range] at hLength

/-- Each page is mapped once. -/
theorem AnonFolio.PrivateTo.mapcount_eq : folio.mapcount = folio.nrPages := by
  have hPtes : entries.countP (fun pte => pte.kind != .deviceExclusive) = folio.nrPages := by
    rw [← h.length_entries, List.countP_eq_length]
    intro pte hPte
    rw [h.present pte hPte]
    rfl
  have hRest : ∀ ws : List Vma, (∀ w ∈ ws, w ∈ before ++ after) →
      (ws.map fun w => w.table.mapcount).sum = 0 := by
    intro ws hws
    rw [List.sum_eq_zero]
    intro count hMem
    obtain ⟨w, hw, rfl⟩ := List.mem_map.mp hMem
    rw [h.others w (hws w hw)]
    rfl
  rw [AnonFolio.mapcount, h.vmas, List.map_append, List.sum_append, List.map_cons, List.sum_cons,
    hRest before (fun w hw => List.mem_append_left _ hw),
    hRest after (fun w hw => List.mem_append_right _ hw), h.table, PageTable.mapcount, hPtes]
  omega

theorem AnonFolio.PrivateTo.entries_eq :
    (RmapWalk.tryToUnmap flags).entries vma = some entries := by
  simp only [RmapWalk.entries, h.table]

theorem AnonFolio.PrivateTo.takes : ∀ pte ∈ entries,
    (RmapWalk.tryToUnmap flags).Takes folio vma pte := by
  intro pte hPte
  rw [← fate_ne_none_iff, fate_eq_swapped_iff.mpr (h.swaps pte hPte)]
  exact Option.some_ne_none _

/-- The VMAs before it have nothing to dispose of. -/
theorem AnonFolio.PrivateTo.visits : (RmapWalk.tryToUnmap flags).Visits folio before vma := by
  have hVisited : (RmapWalk.tryToUnmap flags).visited folio = folio.vmas :=
    List.filter_eq_self.mpr fun _ _ => rfl
  have hMapped : 0 < folio.mapcount := by
    rw [h.mapcount_eq]
    exact folio.nrPages_pos
  have hBefore : entryCount before = 0 := by
    rw [entryCount, List.sum_eq_zero]
    intro count hMem
    obtain ⟨w, hw, rfl⟩ := List.mem_map.mp hMem
    rw [h.others w (List.mem_append_left _ hw)]
    rfl
  refine ⟨⟨rfl, Or.inr hMapped⟩, ?_, ?_, Or.inr ?_⟩
  · rw [hVisited, h.vmas]
    exact ⟨after, by simp⟩
  · intro w hw
    refine ⟨[], ?_, by simp⟩
    simp only [RmapWalk.entries, h.others w (List.mem_append_left _ hw)]
  · rw [hBefore]
    exact_mod_cast hMapped

theorem AnonFolio.PrivateTo.endsAt : (RmapWalk.tryToUnmap flags).EndsAt folio vma := by
  have hCount : entryCount [vma] = folio.nrPages := by
    simp [entryCount, h.table, PageTable.entryCount, h.length_entries]
  refine ⟨before, h.visits, ⟨entries, h.entries_eq, h.takes⟩, ?_⟩
  rw [entryCount_append, hCount, h.mapcount_eq]
  exact Nat.le_add_left _ _

/-- The walk comes to its entries and to no others. -/
theorem AnonFolio.PrivateTo.reaches_iff {w : Vma} {pte : Pte} :
    (RmapWalk.tryToUnmap flags).Reaches folio w pte ↔ w = vma ∧ pte ∈ entries := by
  constructor
  · rintro ⟨_, hVisits, front, back, hReached, _⟩
    have hMem : w ∈ folio.vmas := (List.mem_filter.mp (hVisits.along.leads.subset (by simp))).1
    rw [h.vmas, List.mem_append, List.mem_cons] at hMem
    rcases hMem with hw | rfl | hw
    · simp [RmapWalk.entries, h.others w (List.mem_append_left _ hw)] at hReached
    · rw [h.entries_eq] at hReached
      exact ⟨rfl, by simp [Option.some.inj hReached]⟩
    · simp [RmapWalk.entries, h.others w (List.mem_append_right _ hw)] at hReached
  · rintro ⟨rfl, hPte⟩
    obtain ⟨front, back, hSplit⟩ := List.append_of_mem hPte
    refine ⟨before, h.visits, front, back, by rw [h.entries_eq, hSplit], fun other hOther => ?_⟩
    exact h.takes other (by rw [hSplit]; exact List.mem_append_left _ hOther)

/-- Such a folio is recorded as it should be. -/
theorem records_of_private_folio : ((RmapWalk.tryToUnmap flags).run folio).queued.Perm
    ((RmapWalk.tryToUnmap flags).run folio).swappedPages := by
  have hMem : ∀ address, address ∈ entries.map Pte.address ↔
      ∃ i < folio.nrPages, address = vma.address + 4096 * i := by
    intro address
    rw [h.pages]
    simp only [List.mem_map, List.mem_range, eq_comm]
  refine perm_of_swapsFrom h.endsAt ⟨?_, ?_⟩
  · intro i hi
    obtain ⟨pte, hPte, hAddress⟩ := List.mem_map.mp ((hMem _).mpr ⟨i, hi, rfl⟩)
    exact ⟨vma, pte, h.reaches_iff.mpr ⟨rfl, hPte⟩, h.swaps pte hPte, rfl, hAddress⟩
  · intro w pte hReaches _
    obtain ⟨rfl, hPte⟩ := h.reaches_iff.mp hReaches
    exact ⟨rfl, (hMem _).mp (List.mem_map_of_mem hPte)⟩

end Private

/-- A migration or device-exclusive walk is recorded as it should be exactly
when its map count does not run out. -/
theorem records_iff_of_never_swaps (h : ∀ flags, walk ≠ .tryToUnmap flags) :
    (walk.run folio).queued.Perm (walk.run folio).swappedPages ↔
      ¬ ∃ last, walk.EndsAt folio last := by
  have hNever (vma : Vma) (pte : Pte) : ¬ walk.Swaps vma pte := by
    cases walk with
    | tryToUnmap flags => exact absurd rfl (h flags)
    | tryToMigrate flags => exact id
    | folioMakeDeviceExclusive => exact id
  constructor
  · rintro hSame ⟨last, hLast⟩
    obtain ⟨vma, pte, _, hSwaps, _⟩ := (swapsFrom_of_perm hLast hSame).each 0 folio.nrPages_pos
    exact hNever vma pte hSwaps
  · exact fun hEnds => (perm_iff_of_not_ends hEnds).mpr fun vma pte _ => hNever vma pte

end Cases

end Host
